/-
CellNft.Proofs.Signing — what a signature covers.

* `message_sign`: signing changes nothing that the message reads. The message of the signed
  transaction is the one that was signed, and signing again with another key gives what that key
  gives on the original.
* `sign_rewritten`: signing does not depend on how the first witness is written. A record, and hex
  text in a form that no writer gives, are signed like the serialisation of what is read there.
* `preimage_eq_iff`: the bytes under the hash are equal exactly if raw transaction, number of
  witnesses, both type fields of the first witness and all other witnesses are. The lock of the
  first witness is not among these.

Signing writes `witnesses` and nothing else, so the raw transaction is read from the same items
(`hashValue_set_witnesses`). What it writes there is read back with `Witnesses.withLock_of_texts`.
The second theorem cuts the bytes after the hash, which has one length, and then frame by frame.
-/
import CellNft.Chain.Signing
import CellNft.Proofs.Access
import CellNft.Proofs.RawTransaction
import CellNft.Proofs.WitnessArgs

namespace CellNft

open Outcome

@[simp] theorem length_ckbHash (d : Bytes) : (ckbHash d).length = 32 := by
  simp [ckbHash, Hash.Blake2b.digest, Hash.Blake2b.Row.words]

theorem Secp256k1.PrivateKey.length_sign (key : PrivateKey) (digest : Bytes) :
    (key.sign digest).length = Signing.signatureSize := by
  simp [sign, Signing.signatureSize]

/-- The raw transaction does not look at the witnesses. -/
theorem RawTransaction.encodeValue_set_witnesses (fields : Dict) (w : Value) :
    encodeValue (.dict (fields.set (.str "witnesses") w)) = encodeValue (.dict fields) := by
  simp only [encodeValue, ofValue, readAll, ne_eq, String.reduceEq, not_false_eq_true,
    Value.item_set_ne]

theorem RawTransaction.hashValue_set_witnesses (fields : Dict) (w : Value) :
    hashValue (.dict (fields.set (.str "witnesses") w)) = hashValue (.dict fields) := by
  rw [hashValue, hashValue, encodeValue_set_witnesses]

theorem RawTransaction.length_hashValue {v : Value} {raw : Bytes} (h : hashValue v = .ok raw) :
    raw.length = 32 := by
  obtain ⟨b, -, rfl⟩ := map_eq_ok.mp h
  exact length_ckbHash b

namespace Signing

/-! ## Signing again -/

theorem sign_eq_ok {tx key signed : Value} :
    sign tx key = .ok signed ↔ ∃ (fields : Dict) (digest : Bytes)
      (signer : Secp256k1.PrivateKey) (bs : List Bytes), tx = .dict fields ∧
      ((fields.find? (.str "witnesses")).getD .null).holds ∧ message tx = .ok digest ∧
      readKey key = .ok signer ∧ Witnesses.withLock tx (signer.sign digest) = .ok bs ∧
      signed = .dict (fields.set (.str "witnesses") (.list (Witnesses.texts bs))) := by
  constructor
  · intro h
    obtain ⟨fields, hfields, h⟩ := bind_eq_ok.mp h
    obtain rfl := Value.eq_dict_of_entries hfields
    by_cases hholds : ((fields.find? (.str "witnesses")).getD .null).holds
    · simp only [hholds, Bool.not_true, Bool.false_eq_true, if_false] at h
      obtain ⟨digest, hdigest, h⟩ := bind_eq_ok.mp h
      obtain ⟨signer, hsigner, h⟩ := bind_eq_ok.mp h
      obtain ⟨bs, hbs, h⟩ := bind_eq_ok.mp h
      exact ⟨fields, digest, signer, bs, rfl, hholds, hdigest, hsigner, hbs, (Except.ok.inj h).symm⟩
    · simp [hholds] at h
  · rintro ⟨fields, digest, signer, bs, rfl, hholds, hdigest, hsigner, hbs, rfl⟩
    simp [sign, Value.entries, hholds, hdigest, hsigner, hbs, Witnesses.texts]

/-- Signing leaves what the message and another signature are made of. -/
theorem withLock_signed {fields : Dict} {lock : Bytes} {bs : List Bytes}
    (h : Witnesses.withLock (.dict fields) lock = .ok bs) (other : Bytes) :
    Witnesses.withLock (.dict (fields.set (.str "witnesses") (.list (Witnesses.texts bs)))) other
      = Witnesses.withLock (.dict fields) other :=
  Witnesses.withLock_of_texts h (Value.item_set_self _ _ _) other

theorem preimage_signed {fields : Dict} {lock : Bytes} {bs : List Bytes}
    (h : Witnesses.withLock (.dict fields) lock = .ok bs) :
    preimage (.dict (fields.set (.str "witnesses") (.list (Witnesses.texts bs))))
      = preimage (.dict fields) := by
  rw [preimage, preimage, withLock_signed h, RawTransaction.hashValue_set_witnesses]

theorem message_signed {fields : Dict} {lock : Bytes} {bs : List Bytes}
    (h : Witnesses.withLock (.dict fields) lock = .ok bs) :
    message (.dict (fields.set (.str "witnesses") (.list (Witnesses.texts bs))))
      = message (.dict fields) := by
  rw [message, message, preimage_signed h]

/-- **A signed transaction has the message that was signed, and signing it again is signing the
original.** -/
theorem message_sign {tx key signed : Value} (h : sign tx key = .ok signed) :
    (∃ digest, message tx = .ok digest ∧ message signed = .ok digest) ∧
      ∀ key', sign signed key' = sign tx key' := by
  obtain ⟨fields, digest, signer, bs, rfl, hholds, hdigest, -, hbs, rfl⟩ := sign_eq_ok.mp h
  refine ⟨⟨digest, hdigest, (message_signed hbs).trans hdigest⟩, ?_⟩
  intro key'
  have hwritten : (Value.list (Witnesses.texts bs)).holds := by
    obtain ⟨first, others, -, -, -, rfl⟩ := Witnesses.withLock_eq_ok.mp hbs
    rfl
  simp only [sign, Value.entries, ok_bind, Dict.find?_set_self, Option.getD_some, hwritten, hholds,
    Dict.set_set, message_signed hbs, withLock_signed hbs]

/-- Signed with the key 1 and again with the key 2; the first witness was a record. -/
theorem message_sign_one_two : ∃ tx one two signed, sign tx one = .ok signed ∧
    message signed = message tx ∧ sign signed two = sign tx two := by
  let tx := RawTransaction.bare [] [.record [("inputType", .str "0x02")], .str "0x03"]
  let one := Value.str (Hex.encode (Bytes.ofNatBE 32 1))
  let two := Value.str (Hex.encode (Bytes.ofNatBE 32 2))
  obtain ⟨signed, h⟩ := exists_of_isOk (x := sign tx one) (by decide)
  obtain ⟨⟨digest, hbefore, hafter⟩, hagain⟩ := message_sign h
  exact ⟨tx, one, two, signed, h, hafter.trans hbefore.symm, hagain two⟩

/-- The lock of the first witness of a transaction is the signature of its message by a key. -/
def SignedBy (key tx : Value) : Prop :=
  ∃ signer digest witnesses text bytes witness, readKey key = .ok signer ∧
    message tx = .ok digest ∧ tx.item "witnesses" = .ok witnesses ∧
    witnesses.first = .ok (.str text) ∧ Hex.decode text = .ok bytes ∧
    WitnessArgs.decode bytes = .ok witness ∧ witness.lock = some (signer.sign digest) ∧
    (signer.sign digest).length = signatureSize

/-- What is signed bears the signature. -/
theorem signedBy_sign {tx key signed : Value} (h : sign tx key = .ok signed) :
    SignedBy key signed := by
  obtain ⟨fields, digest, signer, bs, rfl, -, hdigest, hsigner, hbs, rfl⟩ := sign_eq_ok.mp h
  obtain ⟨first, others, -, -, hsize, rfl⟩ := Witnesses.withLock_eq_ok.mp hbs
  have hlen := signer.length_sign digest
  have hne : signer.sign digest ≠ [] := by
    intro hnil
    rw [hnil] at hlen
    exact absurd hlen (by decide)
  exact ⟨signer, digest, _, _, _, _, hsigner, (message_signed hbs).trans hdigest,
    Value.item_set_self _ _ _, Witnesses.first_texts _ _, Hex.decode_encode _,
    WitnessArgs.decode_encode hsize, WitnessArgs.filled_of_ne_nil hne, hlen⟩

/-! ## The first witness written another way -/

theorem firstOfValue_of_item {tx first : Value} {rest : List Value}
    (h : tx.item "witnesses" = .ok (.list (first :: rest))) :
    Witnesses.firstOfValue tx = WitnessArgs.ofValue first := by
  rw [Witnesses.firstOfValue, h, ok_bind, Value.first_cons, ok_bind]

/-- Serialising the first witness and writing it in hex keeps all that another lock leaves. -/
theorem withLock_rewritten {fields : Dict} {first : Value} {rest : List Value} {w : WitnessArgs}
    (hwitnesses : fields.find? (.str "witnesses") = some (.list (first :: rest)))
    (hfirst : Witnesses.firstOfValue (.dict fields) = .ok w) (hsize : w.encode.length < 2 ^ 32)
    (lock : Bytes) :
    Witnesses.withLock (.dict (fields.set (.str "witnesses")
        (.list (.str (Hex.encode w.encode) :: rest)))) lock
      = Witnesses.withLock (.dict fields) lock := by
  have hitem : (Value.dict fields).item "witnesses" = .ok (.list (first :: rest)) :=
    Value.item_dict.mpr hwitnesses
  have hitem' := Value.item_set_self fields "witnesses" (.list (.str (Hex.encode w.encode) :: rest))
  generalize hrewritten : Value.dict (fields.set (.str "witnesses")
    (.list (.str (Hex.encode w.encode) :: rest))) = rewritten at hitem' ⊢
  have hfirst' : Witnesses.firstOfValue rewritten = .ok w.canonical :=
    (firstOfValue_of_item hitem').trans (WitnessArgs.ofValue_encode hsize)
  have hothers : Witnesses.othersOfValue rewritten = Witnesses.othersOfValue (.dict fields) := by
    rw [Witnesses.othersOfValue, Witnesses.othersOfValue, hitem, hitem']
    rfl
  rw [Witnesses.withLock, Witnesses.withLock, hfirst, hfirst', ok_bind, ok_bind, hothers,
    WitnessArgs.serialize, WitnessArgs.encode_withLock_canonical, WitnessArgs.serialize]

/-- **Signing does not depend on how the first witness is written.** A record, and hex text of
whatever can be read, are signed like the serialisation of what is read. -/
theorem sign_rewritten {fields : Dict} {first : Value} {rest : List Value} {w : WitnessArgs}
    {molecule : Bytes} (hwitnesses : fields.find? (.str "witnesses") = some (.list (first :: rest)))
    (hfirst : Witnesses.firstOfValue (.dict fields) = .ok w)
    (hmolecule : w.serialize = .ok molecule) :
    let rewritten := Value.dict (fields.set (.str "witnesses")
      (.list (.str (Hex.encode molecule) :: rest)))
    message rewritten = message (.dict fields) ∧
      (∀ key, sign rewritten key = sign (.dict fields) key) ∧
      ∀ d, first = .dict d → WitnessArgs.bytesOfValue first = .ok molecule := by
  intro rewritten
  obtain ⟨hsize, rfl⟩ := WitnessArgs.serialize_eq_ok.mp hmolecule
  have hlock := withLock_rewritten hwitnesses hfirst hsize
  have hmessage : message rewritten = message (.dict fields) := by
    rw [message, message, preimage, preimage, hlock, RawTransaction.hashValue_set_witnesses]
  refine ⟨hmessage, fun key => ?_, ?_⟩
  · have hholds : ((fields.find? (.str "witnesses")).getD .null).holds := by
      rw [hwitnesses]
      rfl
    have hholds' : (((fields.set (.str "witnesses") (.list (.str (Hex.encode w.encode)
        :: rest))).find? (.str "witnesses")).getD .null).holds := by
      rw [Dict.find?_set_self]
      rfl
    simp only [sign, rewritten, Value.entries, ok_bind, hholds, hholds', Dict.set_set, hlock]
    rw [← hmessage]
  · rintro d rfl
    rw [firstOfValue_of_item (Value.item_dict.mpr hwitnesses)] at hfirst
    have hrecord : WitnessArgs.ofRecord (.dict d) = .ok w := hfirst
    rw [WitnessArgs.bytesOfValue, hrecord, ok_bind, hmolecule]

/-- A first witness in hex that no writer would give: with a fourth item, and a field of no bytes
that is there. -/
theorem sign_rewritten_table :
    let given := Molecule.table [[], Molecule.bytes [], Molecule.bytes [7], [9]]
    let written := WitnessArgs.encode ⟨none, none, some [7]⟩
    ∃ fields : Dict,
      RawTransaction.bare [] [.str (Hex.encode given), .str "0x03"] = .dict fields ∧
      given ≠ written ∧ (message (.dict fields)).isOk ∧
      let rewritten := Value.dict (fields.set (.str "witnesses")
        (.list [.str (Hex.encode written), .str "0x03"]))
      message rewritten = message (.dict fields) ∧
        ∀ key, sign rewritten key = sign (.dict fields) key := by
  have hread : WitnessArgs.ofValue (.str (Hex.encode
      (Molecule.table [[], Molecule.bytes [], Molecule.bytes [7], [9]])))
        = .ok ⟨none, some [], some [7]⟩ := by
    rw [WitnessArgs.ofValue, Hex.decodeValue_encode]
    · rfl
    · rintro _ ⟨⟩
  intro given written
  have hitem : (RawTransaction.bare [] [.str (Hex.encode given), .str "0x03"]).item "witnesses"
      = .ok (.list [.str (Hex.encode given), .str "0x03"]) := Value.item_record.mpr rfl
  have hfirst := (firstOfValue_of_item hitem).trans hread
  have hwritten : WitnessArgs.serialize ⟨none, some [], some [7]⟩ = .ok written := rfl
  obtain ⟨hmessage, hsign, -⟩ := sign_rewritten (Value.item_dict.mp hitem) hfirst hwritten
  exact ⟨_, rfl, by decide, by decide, hmessage, hsign⟩

/-! ## What the message covers -/

theorem frame_eq_ok {w f : Bytes} :
    frame w = .ok f ↔ w.length < 2 ^ 64 ∧ f = Bytes.ofNatLE 8 w.length ++ w := by
  unfold frame
  split <;> simp_all [eq_comm]

/-- Frames one behind the other are told apart by their lengths. -/
theorem frames_injective {ws vs fs gs : List Bytes} (hws : ws.mapM frame = .ok fs)
    (hvs : vs.mapM frame = .ok gs) (heq : fs.flatten = gs.flatten) : ws = vs := by
  replace hws := mapM_eq_ok_iff.mp hws
  replace hvs := mapM_eq_ok_iff.mp hvs
  -- No frame is empty, so both lists end together.
  have hne : ∀ {w f : Bytes} {rest : List Bytes}, frame w = .ok f → (f :: rest).flatten ≠ [] := by
    intro w f rest hf hnil
    have hlen := congrArg List.length hnil
    simp [(frame_eq_ok.mp hf).2] at hlen
  induction hws generalizing vs gs with
  | nil =>
    cases hvs with
    | nil => rfl
    | cons hv _ => exact absurd heq.symm (hne hv)
  | @cons w f ws fs hw _ ih =>
    cases hvs with
    | nil => exact absurd heq (hne hw)
    | @cons v g vs gs hv hvs =>
      obtain ⟨hwlen, rfl⟩ := frame_eq_ok.mp hw
      obtain ⟨hvlen, rfl⟩ := frame_eq_ok.mp hv
      rw [List.flatten_cons, List.flatten_cons, List.append_assoc, List.append_assoc] at heq
      obtain ⟨hsize, hbody⟩ := List.append_inj heq (by simp)
      have hlen := Bytes.ofNatLE_injective (by omega) (by omega) hsize
      obtain ⟨rfl, hrest⟩ := List.append_inj hbody hlen
      rw [ih hrest hvs]

/-- The number of witnesses of a transaction. -/
def witnessCount (tx : Value) : Except Fault Nat := do (← tx.item "witnesses").length

/-- There is one witness beside those that go into the bytes as they are. -/
theorem witnessCount_of_othersOfValue {tx : Value} {first : WitnessArgs} {others : List Bytes}
    (hfirst : Witnesses.firstOfValue tx = .ok first)
    (hothers : Witnesses.othersOfValue tx = .ok others) :
    witnessCount tx = .ok (others.length + 1) := by
  obtain ⟨v, hv, hothers⟩ := bind_eq_ok.mp hothers
  obtain ⟨v', hv', hfirst⟩ := bind_eq_ok.mp hfirst
  obtain rfl : v' = v := Except.ok.inj (hv'.symm.trans hv)
  obtain ⟨head, hhead, -⟩ := bind_eq_ok.mp hfirst
  obtain ⟨tail, htail, hothers⟩ := bind_eq_ok.mp hothers
  rw [witnessCount, hv, ok_bind, ← List.Forall₂.length_eq (mapM_eq_ok_iff.mp hothers)]
  exact Value.length_of_rest hhead htail

theorem preimage_eq_ok {tx : Value} {p : Bytes} :
    preimage tx = .ok p ↔ ∃ raw first others frames, RawTransaction.hashValue tx = .ok raw ∧
      Witnesses.firstOfValue tx = .ok first ∧ Witnesses.othersOfValue tx = .ok others ∧
      { first with lock := some (List.replicate signatureSize 0) : WitnessArgs }.encode.length
        < 2 ^ 32 ∧
      ({ first with lock := some (List.replicate signatureSize 0) : WitnessArgs }.encode
        :: others).mapM frame = .ok frames ∧
      p = raw ++ frames.flatten := by
  simp only [preimage, bind_eq_ok, Witnesses.withLock_eq_ok, pure_eq_ok, Except.ok.injEq]
  constructor
  · rintro ⟨_, ⟨first, others, hfirst, hothers, hsize, rfl⟩, raw, hraw, frames, hframes, rfl⟩
    exact ⟨raw, first, others, frames, hraw, hfirst, hothers, hsize, hframes, rfl⟩
  · rintro ⟨raw, first, others, frames, hraw, hfirst, hothers, hsize, hframes, rfl⟩
    exact ⟨_, ⟨first, others, hfirst, hothers, hsize, rfl⟩, raw, hraw, frames, hframes, rfl⟩

/-- A transaction with a message can be read. -/
theorem exists_of_message {tx : Value} {digest : Bytes} (h : message tx = .ok digest) :
    ∃ t, RawTransaction.ofValue tx = .ok t := by
  obtain ⟨p, hp, -⟩ := map_eq_ok.mp h
  obtain ⟨raw, first, others, frames, hraw, -⟩ := preimage_eq_ok.mp hp
  obtain ⟨b, hb, -⟩ := map_eq_ok.mp hraw
  obtain ⟨t, ht, -⟩ := bind_eq_ok.mp hb
  exact ⟨t, ht⟩

/-- **The bytes under the hash tell raw transaction, number of witnesses, type fields of the first
witness and all other witnesses, and nothing else.** -/
theorem preimage_eq_iff {tx₁ tx₂ : Value} {p₁ p₂ : Bytes} (h₁ : preimage tx₁ = .ok p₁)
    (h₂ : preimage tx₂ = .ok p₂) :
    ∃ raw₁ raw₂ count₁ count₂ first₁ first₂ others₁ others₂,
      RawTransaction.hashValue tx₁ = .ok raw₁ ∧ RawTransaction.hashValue tx₂ = .ok raw₂ ∧
      witnessCount tx₁ = .ok count₁ ∧ witnessCount tx₂ = .ok count₂ ∧
      Witnesses.firstOfValue tx₁ = .ok first₁ ∧ Witnesses.firstOfValue tx₂ = .ok first₂ ∧
      Witnesses.othersOfValue tx₁ = .ok others₁ ∧ Witnesses.othersOfValue tx₂ = .ok others₂ ∧
      (p₁ = p₂ ↔ raw₁ = raw₂ ∧ count₁ = count₂ ∧
        first₁.inputType.getD [] = first₂.inputType.getD [] ∧
        first₁.outputType.getD [] = first₂.outputType.getD [] ∧ others₁ = others₂) := by
  obtain ⟨raw₁, first₁, others₁, frames₁, hraw₁, hfirst₁, hothers₁, hsize₁, hframes₁, rfl⟩ :=
    preimage_eq_ok.mp h₁
  obtain ⟨raw₂, first₂, others₂, frames₂, hraw₂, hfirst₂, hothers₂, -, hframes₂, rfl⟩ :=
    preimage_eq_ok.mp h₂
  refine ⟨raw₁, raw₂, _, _, first₁, first₂, others₁, others₂, hraw₁, hraw₂,
    witnessCount_of_othersOfValue hfirst₁ hothers₁, witnessCount_of_othersOfValue hfirst₂ hothers₂,
    hfirst₁, hfirst₂, hothers₁, hothers₂, ?_⟩
  have hencode := WitnessArgs.encode_eq_iff hsize₁
    (v := { first₂ with lock := some (List.replicate signatureSize 0) })
  constructor
  · intro heq
    have hlen : raw₁.length = raw₂.length := by
      rw [RawTransaction.length_hashValue hraw₁, RawTransaction.length_hashValue hraw₂]
    obtain ⟨hraw, hflat⟩ := List.append_inj heq hlen
    obtain ⟨hfirst, hothers⟩ := List.cons.inj (frames_injective hframes₁ hframes₂ hflat)
    obtain ⟨-, hinput, houtput⟩ := hencode.mp hfirst
    exact ⟨hraw, by rw [hothers], hinput, houtput, hothers⟩
  · rintro ⟨rfl, -, hinput, houtput, rfl⟩
    rw [hencode.mpr ⟨rfl, hinput, houtput⟩, hframes₂] at hframes₁
    rw [Except.ok.inj hframes₁]

/-- A byte that moves from the input type to the output type changes the bytes under the hash. -/
theorem preimage_ne_of_moved_byte :
    let tx (field : String) := RawTransaction.bare [] [.record [(field, .str "0x02")]]
    ∃ p₁ p₂, preimage (tx "inputType") = .ok p₁ ∧ preimage (tx "outputType") = .ok p₂ ∧
      p₁ ≠ p₂ := by
  intro tx
  obtain ⟨p₁, h₁⟩ := exists_of_isOk (x := preimage (tx "inputType")) (by decide)
  obtain ⟨p₂, h₂⟩ := exists_of_isOk (x := preimage (tx "outputType")) (by decide)
  obtain ⟨_, _, _, _, first₁, first₂, _, _, -, -, -, -, hfirst₁, hfirst₂, -, -, hiff⟩ :=
    preimage_eq_iff h₁ h₂
  refine ⟨p₁, p₂, h₁, h₂, ?_⟩
  intro heq
  obtain ⟨-, -, hinput, -, -⟩ := hiff.mp heq
  obtain rfl : first₁ = ⟨none, some [2], none⟩ := Except.ok.inj (hfirst₁.symm.trans rfl)
  obtain rfl : first₂ = ⟨none, none, some [2]⟩ := Except.ok.inj (hfirst₂.symm.trans rfl)
  exact absurd hinput (by decide)

end Signing
end CellNft
