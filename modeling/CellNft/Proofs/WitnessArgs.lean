/-
CellNft.Proofs.WitnessArgs — a serialised witness is read back, and what its serialisation commits
to.

* `decode_encode`: reading a serialised witness gives its fields, except that an empty field has
  become an absent one (`canonical`). Serialising does not tell the two apart.
* `encode_eq_iff`: two serialisations are equal exactly if the fields hold the same bytes, absent
  counting as none. So no byte can move from one field to the next.
* `Witnesses.withLock_of_texts`: a transaction whose witnesses were written in hex with one lock
  in the first of them gives, with any other lock, what the original gives.
-/
import CellNft.Chain.WitnessArgs
import CellNft.Proofs.Hex
import CellNft.Proofs.Molecule

namespace CellNft

open Outcome

namespace WitnessArgs

/-- A field as it is read back: an empty one is absent. -/
def filled : Option Bytes → Option Bytes
  | none | some [] => none
  | some b => some b

/-- A witness as it is read back. -/
def canonical (w : WitnessArgs) : WitnessArgs :=
  ⟨filled w.lock, filled w.inputType, filled w.outputType⟩

@[simp] theorem encodeField_filled (field : Option Bytes) :
    encodeField (filled field) = encodeField field := by
  rcases field with _ | _ | ⟨b, rest⟩ <;> rfl

theorem filled_of_ne_nil {b : Bytes} (h : b ≠ []) : filled (some b) = some b := by
  cases b with
  | nil => exact absurd rfl h
  | cons _ _ => rfl

@[simp] theorem filled_cons (b : UInt8) (rest : Bytes) :
    filled (some (b :: rest)) = some (b :: rest) := rfl

/-! ## Reading back -/

/-- Another lock makes no difference to what becomes of the other fields. -/
theorem encode_withLock_canonical (w : WitnessArgs) (lock : Option Bytes) :
    { w.canonical with lock := lock : WitnessArgs }.encode
      = { w with lock := lock : WitnessArgs }.encode := by
  simp [canonical, encode]

theorem optionalBytes_encodeField {field : Option Bytes}
    (h : (encodeField field).length < 2 ^ 32) :
    Molecule.optionalBytes (encodeField field) = .ok (filled field) := by
  rcases field with _ | _ | ⟨b, rest⟩
  · rfl
  · rfl
  · have hlen : (b :: rest).length < 2 ^ 32 := by
      simp only [encodeField, Molecule.length_bytes] at h
      omega
    have hsize : Molecule.sizeAt (Molecule.bytes (b :: rest)) 0 = (b :: rest).length := by
      exact Molecule.sizeAt_append [] (b :: rest) hlen
    have hne : (Molecule.bytes (b :: rest)).isEmpty = false := by
      rw [← Bool.not_eq_true, List.isEmpty_iff_length_eq_zero, Molecule.length_bytes]
      omega
    have hdrop : (Molecule.bytes (b :: rest)).drop 4 = b :: rest :=
      List.drop_left' (Molecule.length_size _)
    simp only [encodeField, Molecule.optionalBytes, hne, hsize, hdrop, Molecule.length_bytes,
      Bool.false_eq_true, if_false, filled_cons]
    rw [if_pos (Nat.add_comm _ _)]

/-- The fields take no more room than the whole. -/
theorem length_encodeField_le {w : WitnessArgs} {field : Option Bytes}
    (h : field = w.lock ∨ field = w.inputType ∨ field = w.outputType) :
    (encodeField field).length ≤ w.encode.length := by
  rw [encode, Molecule.length_table]
  simp only [List.flatten_cons, List.flatten_nil, List.length_append, List.append_nil]
  rcases h with rfl | rfl | rfl <;> omega

theorem decodeField_encode {w : WitnessArgs} (h : w.encode.length < 2 ^ 32) {i : Nat}
    {field : Option Bytes}
    (hitem : [encodeField w.lock, encodeField w.inputType, encodeField w.outputType][i]?
      = some (encodeField field))
    (hle : (encodeField field).length ≤ w.encode.length) :
    decodeField w.encode i = .ok (filled field) := by
  rw [decodeField, encode, Molecule.item?_table h, hitem]
  exact optionalBytes_encodeField (by omega)

/-- **A serialised witness is read back**, with its empty fields absent. -/
theorem decode_encode {w : WitnessArgs} (h : w.encode.length < 2 ^ 32) :
    decode w.encode = .ok w.canonical := by
  have hsized : Molecule.wellSized w.encode = true := Molecule.wellSized_table h
  have hlock := decodeField_encode h (i := 0) rfl (length_encodeField_le (.inl rfl))
  have hinput := decodeField_encode h (i := 1) rfl (length_encodeField_le (.inr (.inl rfl)))
  have houtput := decodeField_encode h (i := 2) rfl (length_encodeField_le (.inr (.inr rfl)))
  simp [decode, hsized, hlock, hinput, houtput, canonical]

theorem serialize_eq_ok {w : WitnessArgs} {b : Bytes} :
    w.serialize = .ok b ↔ w.encode.length < 2 ^ 32 ∧ b = w.encode :=
  Molecule.sized_eq_ok

/-! ## What a serialisation commits to -/

theorem encodeField_eq_iff {f g : Option Bytes} :
    encodeField f = encodeField g ↔ f.getD [] = g.getD [] := by
  have hbytes : ∀ b : UInt8, ∀ rest : Bytes, Molecule.bytes (b :: rest) ≠ [] := by
    intro b rest h
    simpa using congrArg List.length h
  rcases f with _ | _ | ⟨b, rest⟩ <;> rcases g with _ | _ | ⟨c, tail⟩ <;>
    simp only [encodeField, Option.getD_none, Option.getD_some]
  all_goals try simp [hbytes, (hbytes _ _).symm]
  exact ⟨fun h => by simpa using Molecule.bytes_injective h, fun h => by rw [h.1, h.2]⟩

/-- **Two serialisations are equal exactly if the fields hold the same bytes.** -/
theorem encode_eq_iff {w v : WitnessArgs} (h : w.encode.length < 2 ^ 32) :
    w.encode = v.encode ↔ w.lock.getD [] = v.lock.getD [] ∧
      w.inputType.getD [] = v.inputType.getD [] ∧ w.outputType.getD [] = v.outputType.getD [] := by
  rw [← encodeField_eq_iff, ← encodeField_eq_iff, ← encodeField_eq_iff]
  constructor
  · intro heq
    have hitems := Molecule.table_injective h heq
    simpa using hitems
  · rintro ⟨hlock, hinput, houtput⟩
    rw [encode, encode, hlock, hinput, houtput]

/-! ## Witnesses in hex -/

/-- A serialised witness in hex is read in its parts. -/
theorem ofValue_encode {w : WitnessArgs} (h : w.encode.length < 2 ^ 32) :
    ofValue (.str (Hex.encode w.encode)) = .ok w.canonical := by
  have hne : w.encode.isEmpty = false := by
    rw [← Bool.not_eq_true, List.isEmpty_iff_length_eq_zero, encode, Molecule.length_table]
    omega
  simp only [ofValue, Hex.decodeValue_encode, ok_bind, hne, Bool.false_eq_true, if_false,
    decode_encode h]

theorem bytesOfValue_encode (b : Bytes) : bytesOfValue (.str (Hex.encode b)) = .ok b := by
  rw [bytesOfValue]
  · exact Hex.decodeValue_encode b
  · intro d h
    cases h

end WitnessArgs

namespace Witnesses

/-- The witnesses of a transaction as signing writes them. -/
def texts (witnesses : List Bytes) : List Value :=
  witnesses.map fun b => .str (Hex.encode b)

theorem withLock_eq_ok {tx : Value} {lock : Bytes} {bs : List Bytes} :
    withLock tx lock = .ok bs ↔ ∃ first others, firstOfValue tx = .ok first ∧
      othersOfValue tx = .ok others ∧
      { first with lock := some lock : WitnessArgs }.encode.length < 2 ^ 32 ∧
      bs = { first with lock := some lock : WitnessArgs }.encode :: others := by
  simp only [withLock, bind_eq_ok, WitnessArgs.serialize_eq_ok, pure_eq_ok, Except.ok.injEq]
  constructor
  · rintro ⟨first, hfirst, _, ⟨hsize, rfl⟩, others, hothers, rfl⟩
    exact ⟨first, others, hfirst, hothers, hsize, rfl⟩
  · rintro ⟨first, others, hfirst, hothers, hsize, rfl⟩
    exact ⟨first, hfirst, _, ⟨hsize, rfl⟩, others, hothers, rfl⟩

theorem first_texts (b : Bytes) (others : List Bytes) :
    (Value.list (texts (b :: others))).first = .ok (.str (Hex.encode b)) :=
  Value.first_cons _ _

theorem firstOfValue_of_texts {tx : Value} {w : WitnessArgs} {others : List Bytes}
    (htx : tx.item "witnesses" = .ok (.list (texts (w.encode :: others))))
    (hsize : w.encode.length < 2 ^ 32) : firstOfValue tx = .ok w.canonical := by
  rw [firstOfValue, htx, ok_bind, first_texts, ok_bind, WitnessArgs.ofValue_encode hsize]

theorem othersOfValue_of_texts {tx : Value} {b : Bytes} {others : List Bytes}
    (htx : tx.item "witnesses" = .ok (.list (texts (b :: others)))) :
    othersOfValue tx = .ok others := by
  rw [othersOfValue, htx, ok_bind, Value.rest, ok_bind, texts, List.map_cons, List.drop_one,
    List.tail_cons, mapM_eq_ok_iff, List.forall₂_map_left_iff, List.forall₂_same]
  exact fun b _ => WitnessArgs.bytesOfValue_encode b

/-- **Writing the witnesses in hex, whatever the lock, keeps all that another lock leaves.** -/
theorem withLock_of_texts {tx tx' : Value} {lock : Bytes} {bs : List Bytes}
    (h : withLock tx lock = .ok bs) (htx' : tx'.item "witnesses" = .ok (.list (texts bs)))
    (other : Bytes) : withLock tx' other = withLock tx other := by
  obtain ⟨first, others, hfirst, hothers, hsize, rfl⟩ := withLock_eq_ok.mp h
  have hfirst' := firstOfValue_of_texts htx' hsize
  have hothers' := othersOfValue_of_texts htx'
  rw [withLock, withLock, hfirst, hfirst', ok_bind, ok_bind, hothers, hothers',
    WitnessArgs.serialize, WitnessArgs.encode_withLock_canonical, WitnessArgs.serialize]

end Witnesses
end CellNft
