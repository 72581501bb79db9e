/-
CellNft.Proofs.Faults — what computations do not fail with.

Two failures have a meaning for the program that gets them: that of a stage is passed on as it is,
and that of a poll is followed by another poll. Only a stage and a poll may make them. All other
failures are plain (`Fault.isPlain`), and here it is shown of every reader, writer and decoder that
a flow computes with that it fails plainly, so that no stage and no poll mistakes such a failure for
one of its own.

`Plain` is a condition that goes through chains of steps and branches (`plain_bind`, `plain_ite`), so
the lemma of a function follows from those of the functions it calls.
-/
import CellNft.Cota.Account
import CellNft.Proofs.Outcome

namespace CellNft

open Outcome

/-- Whether a failure is neither that of a stage nor that of a poll. -/
@[simp] def Fault.isPlain : Fault → Bool
  | .stage .. | .notCommitted .. => false
  | .raised kind _ => kind ≠ .stage && kind ≠ .notCommitted
  | _ => true

/-- The kind of a plain failure is not one of the two that a stage and a poll look for. -/
theorem Fault.kind_of_isPlain {f : Fault} (h : f.isPlain) :
    f.kind ≠ .stage ∧ f.kind ≠ .notCommitted := by
  cases f with
  | noCharacter code =>
    rw [kind]
    split <;> exact ⟨by decide, by decide⟩
  | notFinite infinite => cases infinite <;> exact ⟨by decide, by decide⟩
  | pattern flaw => cases flaw <;> exact ⟨by simp [kind], by simp [kind]⟩
  | raised kind text => simpa [Fault.kind] using h
  | stage name cause => cases h
  | notCommitted hash status => cases h
  | _ => exact ⟨by simp [kind], by simp [kind]⟩

/-- A computation that fails plainly, if it fails. -/
def Plain {α : Type} (x : Except Fault α) : Prop := ∀ f, x = .error f → f.isPlain

section

variable {α β : Type}

/-! How steps and branches are put together. The failing step decides, so a chain is plain if each
step is, given what the earlier ones gave. -/

@[simp] theorem plain_ok (a : α) : Plain (.ok a) := by nofun

@[simp] theorem plain_error {f : Fault} : Plain (.error f : Except Fault α) ↔ f.isPlain := by
  simp [Plain]

/-- Naming values in a failure does not make it one of a stage or of a poll. -/
theorem Fault.isPlain_naming {f : Fault} {named : List Value} :
    (naming named f).isPlain ↔ (named.all Value.isWritable = true → f.isPlain) := by
  rw [naming]
  split
  · rename_i hall
    exact ⟨fun h _ => h, fun h => h hall⟩
  · rename_i hall
    exact ⟨fun _ hnot => absurd hnot hall, fun _ => rfl⟩

/-- Before `plain_error`, which would leave the values to be looked at by hand. -/
@[simp 1100] theorem plain_naming {f : Fault} {named : List Value} :
    Plain (.error (.naming named f) : Except Fault α)
      ↔ (named.all Value.isWritable = true → f.isPlain) :=
  plain_error.trans Fault.isPlain_naming

/-- The second step counts only for what the first one gives. -/
@[simp] theorem plain_bind {x : Except Fault α} {g : α → Except Fault β} :
    Plain (x >>= g) ↔ Plain x ∧ ∀ a, x = .ok a → Plain (g a) := by
  cases x <;> simp

@[simp] theorem plain_map {x : Except Fault α} {g : α → β} : Plain (g <$> x) ↔ Plain x := by
  cases x <;> simp

@[simp] theorem plain_ite {p : Prop} [Decidable p] {x y : Except Fault α} :
    Plain (if p then x else y) ↔ (p → Plain x) ∧ (¬p → Plain y) := by
  split <;> simp_all

/-- Branches that use the condition they stand under. -/
@[simp] theorem plain_dite {p : Prop} [Decidable p] {x : p → Except Fault α}
    {y : ¬p → Except Fault α} :
    Plain (if h : p then x h else y h) ↔ (∀ h, Plain (x h)) ∧ ∀ h, Plain (y h) := by
  split <;> simp_all

/-- A list is read item by item, and the first item that fails decides. -/
@[simp] theorem plain_mapM {g : α → Except Fault β} (h : ∀ a, Plain (g a)) :
    ∀ xs : List α, Plain (xs.mapM g)
  | [] => by simp
  | x :: xs => by simp [h, plain_mapM h xs]

end

/-! ## Values

Access fails because of the shape of the value or because of a key or a place that is missing. None
of these failures comes from somewhere else, so there is nothing to assume of the value. -/

namespace Value

section

variable (v : Value) (key : String)

@[simp] theorem plain_item : Plain (v.item key) := by
  unfold item
  split
  · split <;> simp
  · simp

@[simp] theorem plain_field : Plain (v.field key) := by
  cases v <;> simp [field]

@[simp] theorem plain_fieldOr (default : Value) : Plain (v.fieldOr key default) := by
  cases v <;> simp [fieldOr]

/-- By a key of a dictionary, or by a place of a sequence. -/
@[simp] theorem plain_select (place : Value) : Plain (v.select place) := by
  unfold select
  split
  · split <;> simp
  · split
    · split <;> simp
    · simp

@[simp] theorem plain_first : Plain v.first := v.plain_select _

/-- Numbers, dates and null are all that no loop runs through. -/
@[simp] theorem plain_elements : Plain v.elements := by
  unfold elements
  split
  · simp
  · simp
  · split <;> simp

@[simp] theorem plain_rest : Plain v.rest := by
  unfold rest
  split <;> simp

@[simp] theorem plain_entries : Plain v.entries := by
  cases v <;> simp [entries]

/-- The length is the number of the elements, so it fails with them. -/
@[simp] theorem plain_length : Plain v.length := (plain_map (g := List.length)).mpr v.plain_elements

@[simp] theorem plain_text : Plain v.text := by
  unfold text
  split <;> simp

/-- One entry of a dictionary given as pairs: two parts, the first of them a key. -/
@[simp] theorem plain_entryAt (index : Nat) : Plain (v.entryAt index) := by
  simp only [entryAt, plain_bind, plain_elements, true_and]
  intro parts _
  split <;> simp

@[simp] theorem plain_entriesFrom : ∀ (index : Nat) (vs : List Value), Plain (entriesFrom index vs)
  | _, [] => plain_ok _
  | index, v :: rest => by simp [entriesFrom, plain_entriesFrom _ rest]

@[simp] theorem plain_toDict : Plain v.toDict := by
  unfold toDict
  split <;> simp

@[simp] theorem plain_toScalar : Plain v.toScalar := by
  cases v <;> simp [toScalar]

end

mutual

/-- Renaming fails as the renaming of a single key does, at every depth. -/
theorem plain_mapKeys {f : Scalar → Except Fault Scalar} (h : ∀ k, Plain (f k)) :
    ∀ v : Value, Plain (v.mapKeys f)
  | .scalar _ | .pair .. | .set _ => by simp [mapKeys]
  | .list items => by simp [mapKeys, plain_mapKeysItems h items]
  | .dict d => by simp [mapKeys, plain_mapKeysEntries h d]

theorem plain_mapKeysItems {f : Scalar → Except Fault Scalar} (h : ∀ k, Plain (f k)) :
    ∀ items : List Value, Plain (mapKeysItems f items)
  | [] => plain_ok _
  | v :: rest => by simp [mapKeysItems, plain_mapKeys h v, plain_mapKeysItems h rest]

theorem plain_mapKeysEntries {f : Scalar → Except Fault Scalar} (h : ∀ k, Plain (f k)) :
    ∀ d : List (Scalar × Value), Plain (mapKeysEntries f d)
  | [] => plain_ok _
  | (k, v) :: rest => by
      simp [mapKeysEntries, h k, plain_mapKeys h v, plain_mapKeysEntries h rest]

end

/-- No key but a text can be renamed, and no text is refused. -/
@[simp] theorem plain_camelKeys (v : Value) : Plain v.camelKeys :=
  plain_mapKeys (fun k => by cases k <;> simp [KeyCase.camelKey]) v

@[simp] theorem plain_snakeKeys (v : Value) : Plain v.snakeKeys :=
  plain_mapKeys (fun k => by cases k <;> simp [KeyCase.snakeKey]) v

end Value

/-! ## Numbers and hex

The failures name the literal they are about, so the text of one may itself be a failure
(`Fault.naming`): a number with too many digits cannot be shown. -/

/-- Too many digits, or something that is no digit. -/
theorem Numeral.plain_read (base : Nat) (literal : Scalar) (s : List Char) :
    Plain (read base literal s) := by
  unfold read
  split
  · simp
  · split <;> simp

@[simp] theorem Numeral.plain_integer (base : Nat) (t : Text) : Plain (integer base t) :=
  plain_read base _ _

@[simp] theorem Numeral.plain_integerOfBytes (base : Nat) (b : Bytes) :
    Plain (integerOfBytes base b) := plain_read base _ _

@[simp] theorem Value.plain_toInt (v : Value) : Plain v.toInt := by
  unfold toInt
  split
  · simp
  · simp
  · split <;> simp
  · simp
  · simp
  · simp

namespace Scalar

/-- Operands without arithmetic, and a result beyond the doubles. -/
@[simp] theorem plain_calculate (op : Number → Number → Option Number) (a b : Scalar) :
    Plain (calculate op a b) := by
  unfold calculate
  split
  · split <;> simp
  · simp

@[simp] theorem plain_add (a b : Scalar) : Plain (a.add b) := by
  unfold add
  split <;> simp

@[simp] theorem plain_sub (a b : Scalar) : Plain (a.sub b) := plain_calculate _ a b

end Scalar

namespace Hex

@[simp] theorem plain_decode (t : Text) : Plain (decode t) := by
  unfold decode
  split <;> simp

@[simp] theorem plain_decodeValue (v : Value) : Plain (decodeValue v) := by
  simp [decodeValue]

@[simp] theorem plain_writeInt (v : Value) : Plain (writeInt v) := by
  unfold writeInt
  split <;> simp

@[simp] theorem plain_readInt (v : Value) : Plain (readInt v) := by
  unfold readInt
  split <;> simp [readIntText]

/-- What is said of a number that does not fit has the number in it, if that can be written. -/
theorem isPlain_unfitting (s : Scalar) : (unfitting s).isPlain := by
  unfold unfitting
  split
  · split <;> rfl
  · rfl

/-- Negative and too large numbers; a double has no hex. -/
@[simp] theorem plain_writeU32 (v : Value) : Plain (writeU32 v) := by
  unfold writeU32
  split
  · split
    · simp
    · simp only [plain_ite, plain_error, isPlain_unfitting, implies_true, true_and]
      intro _
      split <;> simp
  · simp

end Hex

/-! ## Transactions

Records are read field by field and written field by field, so the lemmas follow the definitions:
what is not a field of its own is a chain of reads, which `simp` takes apart. -/

namespace Molecule

@[simp] theorem plain_sized (b : Bytes) : Plain (sized b) := by simp [sized]

@[simp] theorem plain_fitting (width : Nat) (n : Int) : Plain (fitting width n) := by
  simp [fitting]

@[simp] theorem plain_optionalBytes (item : Bytes) : Plain (optionalBytes item) := by
  simp [optionalBytes]

end Molecule

@[simp] theorem Hash32.plain_ofBytes (b : Bytes) : Plain (ofBytes b) := by simp [ofBytes]

@[simp] theorem HashType.plain_ofValue (v : Value) : Plain (ofValue v) := by
  unfold ofValue
  split
  · split <;> simp
  · simp
  · simp

@[simp] theorem DepType.plain_ofValue (v : Value) : Plain (ofValue v) := by
  unfold ofValue
  split
  · split <;> simp
  · simp
  · simp

namespace Script

variable (v : Value)

@[simp] theorem plain_ofValue : Plain (ofValue v) := by simp [ofValue]

@[simp] theorem plain_serializeBytes : Plain (serializeBytes v) := by simp [serializeBytes]

@[simp] theorem plain_serialize : Plain (serialize v) := by simp [serialize]

@[simp] theorem plain_hashText : Plain (hashText v) := by simp [hashText]

end Script

namespace OutPoint

@[simp] theorem plain_ofValue (v : Value) : Plain (ofValue v) := by simp [ofValue]

@[simp] theorem plain_encode (o : OutPoint) : Plain o.encode := by simp [encode]

@[simp] theorem plain_tail (v : Value) : Plain (tail v) := by
  simp [tail, serializeBytes, indexBytes]

end OutPoint

@[simp] theorem CellDep.plain_ofValue (v : Value) : Plain (ofValue v) := by simp [ofValue]

@[simp] theorem CellDep.plain_encode (d : CellDep) : Plain d.encode := by simp [encode]

@[simp] theorem CellInput.plain_ofValue (v : Value) : Plain (ofValue v) := by simp [ofValue]

@[simp] theorem CellInput.plain_encode (i : CellInput) : Plain i.encode := by simp [encode]

@[simp] theorem CellOutput.plain_ofValue (v : Value) : Plain (ofValue v) := by simp [ofValue]

@[simp] theorem CellOutput.plain_encode (o : CellOutput) : Plain o.encode := by simp [encode]

namespace RawTransaction

/-- A list of records under one key of the transaction. -/
@[simp] theorem plain_readAll {α : Type} {read : Value → Except Fault α} (h : ∀ v, Plain (read v))
    (v : Value) (key : String) : Plain (readAll read v key) := by
  simp [readAll, plain_mapM h]

/-- Reading, writing and hashing of a whole transaction. -/
@[simp] theorem plain_hashValue (v : Value) : Plain (hashValue v) := by
  simp [hashValue, encodeValue, ofValue, encode]

end RawTransaction

namespace WitnessArgs

@[simp] theorem plain_fieldOfValue (v : Value) : Plain (fieldOfValue v) := by
  unfold fieldOfValue
  split <;> simp

@[simp] theorem plain_ofRecord (v : Value) : Plain (ofRecord v) := by simp [ofRecord]

@[simp] theorem plain_decodeField (d : Bytes) (i : Nat) : Plain (decodeField d i) := by
  unfold decodeField
  split <;> simp

@[simp] theorem plain_decode (d : Bytes) : Plain (decode d) := by simp [decode]

@[simp] theorem plain_ofValue (v : Value) : Plain (ofValue v) := by
  unfold ofValue
  split <;> simp

@[simp] theorem plain_bytesOfValue (v : Value) : Plain (bytesOfValue v) := by
  unfold bytesOfValue
  split <;> simp [serialize]

end WitnessArgs

/-- A transaction without witnesses is one of the failures here. -/
@[simp] theorem Witnesses.plain_withLock (tx : Value) (lock : Bytes) : Plain (withLock tx lock) := by
  simp [withLock, firstOfValue, othersOfValue, WitnessArgs.serialize]

@[simp] theorem Secp256k1.PrivateKey.plain_ofBytes (b : Bytes) : Plain (ofBytes b) := by
  simp [ofBytes]

namespace Signing

/-- A key is refused for its length or for being outside the group. -/
@[simp] theorem plain_readKey (key : Value) : Plain (readKey key) := by simp [readKey]

@[simp] theorem plain_frame (w : Bytes) : Plain (frame w) := by simp [frame]

/-- The stage that signs makes its own failure from this one. -/
@[simp] theorem plain_sign (tx key : Value) : Plain (sign tx key) := by
  simp [sign, message, preimage]

end Signing

@[simp] theorem Wire.plain_cellDep (dep : Value) : Plain (cellDep dep) := by
  have hsnake : ∀ v, Plain (snakeValue v) := fun v => by
    unfold snakeValue
    split <;> simp
  simp [cellDep, hsnake]

/-- Keys are converted, and the kind of each dep, which must be a text. -/
@[simp] theorem Wire.plain_transaction (tx : Value) : Plain (transaction tx) := by
  have hdeps : ∀ v, Plain (cellDeps v) := fun v => by
    cases v <;> simp [cellDeps]
  simp [transaction, hdeps]

/-! ## Replies

A reader of JSON fails at a misplaced character or at a number with too many digits. Its functions
call each other with less and less fuel, and the induction is on that. -/

namespace Json

@[simp] theorem plain_wellFormed {α : Type} (x : Option α) : Plain (wellFormed x) := by
  cases x <;> simp [wellFormed]

variable (most : Option Nat)

@[simp] theorem plain_wholeNumber (negative : Bool) (digits : List CodePoint) :
    Plain (wholeNumber most negative digits) := by
  simp [wholeNumber]

/-- Digits alone are a whole number; with a fraction or an exponent they are a double. -/
@[simp] theorem plain_readUnsigned (negative : Bool) (s : List CodePoint) :
    Plain (readUnsigned most negative s) := by
  unfold readUnsigned
  extract_lets whole behind tail
  have htail : Plain (tail ()) := by
    simp only [tail]
    split <;> simp
  split
  · simp
  · exact htail

@[simp] theorem plain_readAtom (s : List CodePoint) : Plain (readAtom most s) := by
  unfold readAtom
  split
  · simp
  · split <;> simp

mutual

theorem plain_readValue : ∀ (fuel : Nat) (s : List CodePoint), Plain (readValue most fuel s)
  | 0, _ => by simp [readValue]
  | fuel + 1, s => by
      have hitems := plain_readItems fuel
      have hentries := plain_readEntries fuel
      unfold readValue
      split
      · simp_all
      · simp_all
      · split <;> simp_all
      · split <;> simp_all
      · simp

theorem plain_readItems : ∀ (fuel : Nat) (s : List CodePoint), Plain (readItems most fuel s)
  | 0, _ => by simp [readItems]
  | fuel + 1, s => by
      have hvalue := plain_readValue fuel
      have hitems := plain_readItems fuel
      unfold readItems
      simp only [plain_bind, hvalue, true_and]
      intro _ _
      split <;> simp [hitems]

theorem plain_readEntries : ∀ (fuel : Nat) (s : List CodePoint), Plain (readEntries most fuel s)
  | 0, _ => by simp [readEntries]
  | fuel + 1, s => by
      have hvalue := plain_readValue fuel
      have hentries := plain_readEntries fuel
      unfold readEntries
      split
      · simp
      · simp only [plain_bind, plain_wellFormed, true_and]
        intro _ _
        split
        · simp only [plain_bind]
          refine ⟨by simp_all, fun _ _ => ?_⟩
          split <;> simp_all
        · simp
      · simp

end

/-- A document that is a text. -/
@[simp] theorem plain_parse (t : Text) : Plain (parse t) := by
  simp [parse, parseWithin, plain_readValue]

end Json

/-! ### Values without a text -/

namespace Json

/-- Bytes and dates have no JSON text, and neither has a number with too many digits. -/
theorem isPlain_scalarRefusal? {s : Scalar} {f : Fault} (h : scalarRefusal? s = some f) :
    f.isPlain := by
  cases s with
  | int n =>
    rw [scalarRefusal?] at h
    split at h
    · exact Option.some.inj h ▸ rfl
    · cases h
  | bytes _ | date _ | moment _ => exact Option.some.inj h ▸ rfl
  | _ => cases h

mutual

/-- What a value is refused for is what its first part without a text is refused for. -/
theorem isPlain_refusal? : ∀ {v : Value} {f : Fault}, refusal? v = some f → f.isPlain
  | .scalar _, _, h => isPlain_scalarRefusal? h
  | .list _, _, h => isPlain_itemsRefusal? h
  | .pair _ _, _, h =>
    (Option.or_eq_some_iff.mp h).elim isPlain_refusal? fun h => isPlain_refusal? h.2
  | .set _, _, h => Option.some.inj h ▸ rfl
  | .dict _, _, h => isPlain_entriesRefusal? h

theorem isPlain_itemsRefusal? :
    ∀ {items : List Value} {f : Fault}, itemsRefusal? items = some f → f.isPlain
  | [], _, h => nomatch h
  | _ :: _, _, h =>
    (Option.or_eq_some_iff.mp h).elim isPlain_refusal? fun h => isPlain_itemsRefusal? h.2

theorem isPlain_entriesRefusal? :
    ∀ {d : List (Scalar × Value)} {f : Fault}, entriesRefusal? d = some f → f.isPlain
  | [], _, h => nomatch h
  | (_, _) :: _, _, h =>
    (Option.or_eq_some_iff.mp h).elim isPlain_scalarRefusal? fun h =>
      (Option.or_eq_some_iff.mp h.2).elim isPlain_refusal? fun h => isPlain_entriesRefusal? h.2

end

/-- Behind the refusals there is no other way to fail. -/
@[simp] theorem plain_check (v : Value) : Plain (check v) := by
  unfold check
  split
  · exact plain_error.mpr (isPlain_refusal? ‹_›)
  · simp

@[simp] theorem plain_write (layout : Layout) (v : Value) : Plain (write layout v) := by
  simp [write]

end Json

/-! ### Requests and replies -/

/-- The timeout and the values of a call are looked at before anything is sent. -/
@[simp] theorem Http.plain_prepare (timeout : Value) (c : Call) : Plain (prepare timeout c) := by
  simp [prepare, carry]

/-- No answer, a status from 400 on, or a document that cannot be read. -/
@[simp] theorem Http.plain_read (reply : Reply) : Plain (read reply) := by
  unfold read
  split
  · simp
  · rename_i body
    have hdocument : Plain body.document := by
      unfold Body.document
      split <;> simp
    simp [hdocument]

@[simp] theorem Rpc.Node.plain_statusOf (tx : Value) : Plain (statusOf tx) := by
  simp [statusOf]

@[simp] theorem Rpc.Collector.plain_searchKey (lock type : Value) :
    Plain (searchKey lock type) := by
  simp [searchKey]

/-! ## Addresses

The checks of an address are in a row, and each has a failure with the address in it. -/

namespace Address

@[simp] theorem plain_shortCodeHash (hrp : Text) (index : Int) : Plain (shortCodeHash hrp index) := by
  simp [shortCodeHash]

/-- Behind the checksum: length, format, index and hash type. -/
@[simp] theorem plain_scriptOf (address : Text) (hrp : String) (bytes : Bytes) :
    Plain (scriptOf address hrp bytes) := by
  unfold scriptOf
  cases HashType.ofByte? (bytes.getD 33 0) <;> simp [payloadCodeHash]

@[simp] theorem plain_scriptValue (v : Value) : Plain (scriptValue v) := by
  have hpayload : ∀ a, Plain (payload a) := fun a => by
    unfold payload
    split <;> simp
  unfold scriptValue
  split <;> simp [script, hpayload]

end Address

/-! ## Flows

The parts of a flow that make no request. -/

namespace Cota

namespace Service

@[simp] theorem plain_cellDep (conf : Value) : Plain (cellDep conf) := by simp [cellDep]

/-- The settings are read whole before a service is made of them. -/
@[simp] theorem plain_ofConfig (config : Value) : Plain (ofConfig config) := by
  have hread : Plain (readConfig config) := by simp [readConfig]
  unfold ofConfig
  split
  · simp
  · exact hread

/-- The fee, the capacity that is left, and the fields of the cell. -/
@[simp] theorem plain_output (s : Service) (cell fee : Value) : Plain (s.output cell fee) := by
  have hfee : Plain (s.feeOr fee) := by
    unfold feeOr
    split <;> simp
  have hafter : ∀ shown capacity fee, Plain (capacityAfter shown capacity fee) := by
    intro shown capacity fee
    simp only [capacityAfter, plain_bind, Scalar.plain_sub, true_and]
    intro left _
    split <;> simp
  simp [output, hfee, hafter]

@[simp] theorem plain_versionAndRoot (cell root : Value) : Plain (versionAndRoot cell root) := by
  simp [versionAndRoot]

end Service

/-- The first withdrawal with an index that does not fit ends the numbering. -/
@[simp] theorem Mint.plain_withIndexes (issued : Value) :
    ∀ (place : Nat) (withdrawals : List Value), Plain (withIndexes issued place withdrawals)
  | _, [] => plain_ok _
  | place, w :: rest => by
      simp [withIndexes, tokenIndex, plain_withIndexes issued (place + 1) rest]

namespace Submission

@[simp] theorem plain_appendDep (tx dep : Value) : Plain (appendDep tx dep) := by
  simp only [appendDep, plain_bind, Value.plain_item, true_and]
  intro deps _
  split <;> simp

@[simp] theorem plain_areArgs (text : Text) (args : Value) : Plain (areArgs text args) := by
  unfold areArgs
  split <;> simp

/-- A key of another lock is a failure of its own, besides those of reading the key. -/
@[simp] theorem plain_checkKey (key lock : Value) : Plain (checkKey key lock) := by
  simp [checkKey, Signing.lockArgs]

@[simp] theorem plain_receiverLock (request : Value) : Plain (receiverLock request) := by
  simp [receiverLock]

@[simp] theorem plain_withdrawal (w : Value) : Plain (withdrawal w) := by simp [withdrawal]

@[simp] theorem plain_transfer (t : Value) : Plain (transfer t) := by simp [transfer]

end Submission

@[simp] theorem Account.plain_locate (address : Value) : Plain (locate address) := by
  simp [locate]

end Cota
end CellNft
