/-
CellNft.Proofs.LockFrame — what signing leaves as it was.

`sign_frame`: of a transaction that is signed only the witnesses change, and of the witnesses only
the lock of the first.

* `Dict.SameBeside` is the frame of the fields, `Relocks` that of the witnesses and `Locked` that of
  the first witness.
* `Hashes` is the witness that stood for the first one under the hash. It has a lock of zeros where
  the signed one has the signature, so the two have one length (`length_encode_withLock`).

The first witness is read in its parts and serialised again, the others are only read and written in
hex. Serialising makes an absent field of one without bytes, which is why the fields of the first
witness are compared by their bytes.
-/
import CellNft.Proofs.Signing

namespace CellNft

open Outcome

/-- Two dictionaries have the same keys in the same order, and the same values but under one key. -/
def Dict.SameBeside (t : Text) (d d' : Dict) : Prop :=
  d'.map (·.1) = d.map (·.1) ∧ ∀ k : Scalar, k ≠ .str t → d'.find? k = d.find? k

theorem Dict.sameBeside_set {d : Dict} {t : Text} {v : Value} (h : d.find? (.str t) = some v)
    (w : Value) : SameBeside t d (d.set (.str t) w) :=
  ⟨keys_set_of_find? h w, fun _ hne => find?_set_of_ne d hne w⟩

namespace WitnessArgs

@[simp] theorem getD_filled (field : Option Bytes) : (filled field).getD [] = field.getD [] := by
  rcases field with _ | _ | ⟨b, rest⟩ <;> rfl

theorem length_encodeField (b : Bytes) :
    (encodeField (some b)).length = if b = [] then 0 else 4 + b.length := by
  cases b with
  | nil => rfl
  | cons b rest => exact Molecule.length_bytes _

/-- A lock as long as another takes as much room. -/
theorem length_encode_withLock (w : WitnessArgs) {lock other : Bytes}
    (h : lock.length = other.length) :
    { w with lock := some lock : WitnessArgs }.encode.length
      = { w with lock := some other : WitnessArgs }.encode.length := by
  have hnil : lock = [] ↔ other = [] := by
    rw [← List.length_eq_zero_iff, ← List.length_eq_zero_iff, h]
  simp only [encode, Molecule.length_table, List.flatten_cons, List.length_append,
    List.length_cons, List.length_nil, length_encodeField, h, hnil]

end WitnessArgs

namespace Signing

/-- A witness with a lock of the size of a signature, and with the other fields of the witness
before it. -/
structure Locked (before after : WitnessArgs) : Prop where
  lock : ∃ lock, after.lock = some lock ∧ lock.length = signatureSize
  inputType : after.inputType.getD [] = before.inputType.getD []
  outputType : after.outputType.getD [] = before.outputType.getD []

/-- The first of the witnesses under the hash of a transaction. -/
def Hashes (tx : Value) (placeholder : Bytes) : Prop :=
  ∃ raw others frames, RawTransaction.hashValue tx = .ok raw ∧
    (placeholder :: others).mapM frame = .ok frames ∧ preimage tx = .ok (raw ++ frames.flatten)

/-- The witnesses `new` are the witnesses `old` of the transaction in hex, the first of them with
another lock. -/
structure Relocks (tx : Value) (old new : List Value) : Prop where
  length : new.length = old.length
  hex : ∀ w ∈ new, ∃ b, w = .str (Hex.encode b)
  others : ∀ i v w, 1 ≤ i → old[i]? = some v → new[i]? = some w →
    ∃ b, WitnessArgs.bytesOfValue v = .ok b ∧ Hex.decodeValue w = .ok b
  first : ∃ w bytes before after placeholder, new[0]? = some w ∧ Hex.decodeValue w = .ok bytes ∧
    WitnessArgs.decode bytes = .ok after ∧ Witnesses.firstOfValue tx = .ok before ∧
    Locked before after ∧ Hashes tx placeholder ∧ bytes.length = placeholder.length

theorem locked_canonical (before : WitnessArgs) {lock : Bytes}
    (h : lock.length = signatureSize) :
    Locked before { before with lock := some lock : WitnessArgs }.canonical := by
  have hne : lock ≠ [] := by
    rintro rfl
    exact absurd h (by decide)
  exact ⟨⟨lock, WitnessArgs.filled_of_ne_nil hne, h⟩, WitnessArgs.getD_filled _,
    WitnessArgs.getD_filled _⟩

/-- What is hashed for the first witness is that witness with a lock of zeros. -/
theorem hashes_of_message {tx : Value} {digest : Bytes} {before : WitnessArgs}
    (hmessage : message tx = .ok digest) (hbefore : Witnesses.firstOfValue tx = .ok before) :
    Hashes tx
      { before with lock := some (List.replicate signatureSize 0) : WitnessArgs }.encode := by
  obtain ⟨p, hp, -⟩ := map_eq_ok.mp hmessage
  obtain ⟨raw, first, others, frames, hraw, hfirst, -, -, hframes, rfl⟩ := preimage_eq_ok.mp hp
  obtain rfl : first = before := Except.ok.inj (hfirst.symm.trans hbefore)
  exact ⟨raw, others, frames, hraw, hframes, hp⟩

/-- The witnesses of a transaction that go into the bytes as they are stand behind the first. -/
theorem elements_of_othersOfValue {tx witnesses : Value} {first : WitnessArgs} {others : List Bytes}
    (hwitnesses : tx.item "witnesses" = .ok witnesses)
    (hfirst : Witnesses.firstOfValue tx = .ok first)
    (hothers : Witnesses.othersOfValue tx = .ok others) :
    ∃ head tail, witnesses.elements = .ok (head :: tail) ∧
      List.Forall₂ (fun v b => WitnessArgs.bytesOfValue v = .ok b) tail others := by
  rw [Witnesses.firstOfValue, hwitnesses, ok_bind] at hfirst
  rw [Witnesses.othersOfValue, hwitnesses, ok_bind] at hothers
  obtain ⟨head, hhead, -⟩ := bind_eq_ok.mp hfirst
  obtain ⟨tail, htail, hothers⟩ := bind_eq_ok.mp hothers
  exact ⟨head, tail, Value.elements_eq_cons hhead htail, mapM_eq_ok_iff.mp hothers⟩

theorem relocks_texts {tx head : Value} {tail : List Value} {digest lock : Bytes}
    {before : WitnessArgs} {others : List Bytes} (hmessage : message tx = .ok digest)
    (hbefore : Witnesses.firstOfValue tx = .ok before) (hlock : lock.length = signatureSize)
    (hsize : { before with lock := some lock : WitnessArgs }.encode.length < 2 ^ 32)
    (hothers : List.Forall₂ (fun v b => WitnessArgs.bytesOfValue v = .ok b) tail others) :
    Relocks tx (head :: tail)
      (Witnesses.texts ({ before with lock := some lock : WitnessArgs }.encode :: others)) where
  length := by simp [Witnesses.texts, hothers.length_eq]
  hex := by
    intro w hw
    obtain ⟨b, -, rfl⟩ := List.mem_map.mp hw
    exact ⟨b, rfl⟩
  others := by
    intro i v w hi hv hw
    obtain ⟨j, rfl⟩ := Nat.exists_eq_add_of_le' hi
    rw [Witnesses.texts, List.map_cons, List.getElem?_cons_succ, List.getElem?_map,
      Option.map_eq_some_iff] at hw
    rw [List.getElem?_cons_succ] at hv
    obtain ⟨b, hb, rfl⟩ := hw
    obtain ⟨hj, rfl⟩ := List.getElem?_eq_some_iff.mp hv
    obtain ⟨hj', rfl⟩ := List.getElem?_eq_some_iff.mp hb
    exact ⟨others[j], hothers.get hj hj', Hex.decodeValue_encode _⟩
  first := ⟨_, _, before, _, _, rfl, Hex.decodeValue_encode _, WitnessArgs.decode_encode hsize,
    hbefore, locked_canonical before hlock, hashes_of_message hmessage hbefore,
    WitnessArgs.length_encode_withLock before (by simp [hlock])⟩

/-- **Signing changes the witnesses only, and in the first of them the lock only.** -/
theorem sign_frame {tx key signed : Value} (h : sign tx key = .ok signed) :
    ∃ (fields fields' : Dict) (witnesses : Value) (old new : List Value),
      tx = .dict fields ∧ signed = .dict fields' ∧
      Dict.SameBeside "witnesses" fields fields' ∧
      tx.item "witnesses" = .ok witnesses ∧ witnesses.elements = .ok old ∧
      signed.item "witnesses" = .ok (.list new) ∧ Relocks tx old new := by
  obtain ⟨fields, digest, signer, bs, rfl, -, hdigest, -, hbs, rfl⟩ := sign_eq_ok.mp h
  obtain ⟨before, others, hbefore, hothers, hsize, rfl⟩ := Witnesses.withLock_eq_ok.mp hbs
  obtain ⟨witnesses, hwitnesses, -⟩ := bind_eq_ok.mp hothers
  obtain ⟨head, tail, hold, hbytes⟩ := elements_of_othersOfValue hwitnesses hbefore hothers
  exact ⟨fields, _, witnesses, _, _, rfl, rfl,
    Dict.sameBeside_set (Value.item_dict.mp hwitnesses) _, hwitnesses, hold,
    Value.item_set_self _ _ _,
    relocks_texts hdigest hbefore (signer.length_sign digest) hsize hbytes⟩

/-- Signed with the key 1: the input type of the first witness stays, and so do the bytes of the
second witness, whose text was not in the form that is written. -/
theorem sign_frame_one : ∃ tx one signed first after, sign tx one = .ok signed ∧
    signed.item "version" = tx.item "version" ∧
    signed.item "witnesses" = .ok (.list [first, .str (Hex.encode [0xab])]) ∧
    (Hex.decodeValue first >>= WitnessArgs.decode) = .ok after ∧
    after.inputType.getD [] = [2] ∧ after.outputType.getD [] = [] := by
  let tx := RawTransaction.bare [] [.record [("inputType", .str "0x02")], .str "AB"]
  let one := Value.str (Hex.encode (Bytes.ofNatBE 32 1))
  obtain ⟨signed, h⟩ := exists_of_isOk (x := sign tx one) (by decide)
  obtain ⟨fields, fields', witnesses, old, new, hfields, rfl, ⟨-, hsame⟩, hwitnesses, hold, hnew,
    ⟨hlength, hhex, hothers, hfirst⟩⟩ := sign_frame h
  obtain rfl : Value.list [.record [("inputType", .str "0x02")], .str "AB"] = witnesses :=
    Except.ok.inj hwitnesses
  obtain rfl := Except.ok.inj hold
  match new, hlength with
  | [first, second], _ =>
    obtain ⟨_, bytes, before, after, _, ⟨⟩, hbytes, hafter, hbefore, hlocked, -, -⟩ := hfirst
    obtain rfl : ⟨none, some [2], none⟩ = before := Except.ok.inj hbefore
    obtain ⟨b, rfl⟩ := hhex second (by simp)
    obtain ⟨_, hread, hsecond⟩ := hothers 1 _ _ le_rfl rfl rfl
    obtain rfl : b = [0xab] := by
      rw [Hex.decodeValue_encode] at hsecond
      exact Except.ok.inj (hsecond.trans hread.symm)
    have hversion : (Value.dict fields').item "version" = tx.item "version" := by
      rw [hfields, Value.item, Value.item, hsame _ (by decide)]
    exact ⟨tx, one, _, first, after, h, hversion, hnew, by rw [hbytes, ok_bind, hafter],
      hlocked.inputType, hlocked.outputType⟩

end Signing
end CellNft
