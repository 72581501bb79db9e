/-
CellNft.Proofs.Decoding — what becomes of any text that is taken for an address.

`scriptValue_usable`: a text is refused with a failure of the family `value`, or it is read as a
script that can be serialised and hashed and whose fields are lower case hex of the right length. An
ASCII text and the same text in lower case are read as one script, or both are refused.

The payload of a text is at most five eighths as long as the text (`Bech32.length_le_of_decode?`),
so the serialised script of a text of less than `2 ^ 32` code points fits its own sizes. What a
payload is read as does not depend on the text that it came from (`scriptOf_cases`), and the payload
is the same in lower case (`Bech32.decode?_lower`).
-/
import CellNft.Proofs.Address
import Mathlib

namespace CellNft

open Outcome

/-! ## Lower case -/

namespace Text

/-- Only the capitals of ASCII have another lower case, which is a small letter. -/
theorem toLower_cases (c : Char) :
    c.toLower = c ∨ 65 ≤ c.toNat ∧ c.toNat ≤ 90 ∧ c.toLower.toNat = c.toNat + 32 := by
  by_cases hupper : c.isUpper
  · have hrange : 65 ≤ c.toNat ∧ c.toNat ≤ 90 := by
      simpa [Char.isUpper, UInt32.le_iff_toNat_le] using hupper
    have hvalid : (c.toNat + 32).isValidChar := by
      left
      omega
    rw [Char.toLower_eq_of_isUpper hupper, Char.toNat_ofNat, if_pos hvalid]
    exact .inr ⟨hrange.1, hrange.2, rfl⟩
  · exact .inl (Char.toLower_eq_of_not_isUpper hupper)

end Text

namespace Bech32

/-- A text is read as it is in lower case. -/
theorem decode?_lower (variant : Variant) (text : List Char) :
    decode? variant (text.map Char.toLower) = decode? variant text := by
  have hvisible : ∀ c : Char, (decide (c.toLower.toNat < 33) || decide (126 < c.toLower.toNat))
      = (decide (c.toNat < 33) || decide (126 < c.toNat)) := by
    intro c
    rcases Text.toLower_cases c with h | ⟨hlow, hhigh, hnat⟩
    · rw [h]
    · rw [hnat]
      rw [← Bool.decide_or, ← Bool.decide_or, decide_eq_decide]
      omega
  have htwice : (text.map Char.toLower).map Char.toLower = text.map Char.toLower := by
    rw [List.map_map]
    exact List.map_congr_left fun c _ => Char.toLower_toLower_eq_toLower c
  rw [decode?, decode?, decodeWords?, decodeWords?, htwice, List.any_map]
  simp only [Function.comp_def, hvisible]

/-- A character stands for at most five bits of the payload. -/
theorem length_le_of_decode? {variant : Variant} {text hrp : List Char} {bytes : Bytes}
    (h : decode? variant text = some (hrp, bytes)) : 8 * bytes.length ≤ 5 * text.length := by
  obtain ⟨words, hsealed, hbytes⟩ := decode?_eq_some_iff.mp h
  have htext := congrArg List.length hsealed.lower
  simp only [List.length_map, List.length_append, List.length_cons] at htext
  rw [ofWords?] at hbytes
  generalize hrow : (words.take (words.length - 6)).flatMap (bits 5) = row at hbytes
  have hrow := congrArg List.length hrow
  simp only [List.length_flatMap, length_bits, List.map_const', List.sum_replicate_nat,
    List.length_take] at hrow
  obtain ⟨hflat, hgroups, -⟩ := groupBits_cut (by decide : 0 < 8) row.length row (Nat.le_refl _)
  have hflat := congrArg List.length hflat
  rw [List.length_append, length_flatten_groups hgroups] at hflat
  simp only at hbytes
  split at hbytes
  · obtain rfl := Option.some.inj hbytes
    rw [List.length_map]
    omega
  · cases hbytes

end Bech32

/-! ## Scripts in use -/

namespace Script

theorem length_encode (s : Script) : s.encode.length = 53 + s.args.length := by
  obtain ⟨⟨codeHash, hlen⟩, hashType, args⟩ := s
  rw [encode, Molecule.length_table]
  simp only [List.length_cons, List.length_nil, List.flatten_cons, List.flatten_nil,
    List.length_append, Molecule.length_bytes, hlen]
  omega

theorem ofValue_name (t : HashType) : HashType.ofValue (.str t.name) = .ok t := by
  have hname : HashType.ofName? t.name = some t := by cases t <;> decide
  rw [HashType.ofValue, hname]

/-- A script is read back from its record. -/
theorem ofValue_toValue (s : Script) : ofValue s.toValue = .ok s := by
  have hhash : s.toValue.item "codeHash" = .ok (.str (Hex.encode s.codeHash.val)) :=
    Value.item_record.mpr rfl
  have htype : s.toValue.item "hashType" = .ok (.str s.hashType.name) := Value.item_record.mpr rfl
  have hargs : s.toValue.item "args" = .ok (.str (Hex.encode s.args)) := Value.item_record.mpr rfl
  have hbytes : Hash32.ofBytes s.codeHash.val = .ok s.codeHash := dif_pos s.codeHash.property
  simp only [ofValue, hhash, htype, hargs, ofValue_name, hbytes, Hex.decodeValue_encode, ok_bind,
    pure_eq_ok]

theorem serializeBytes_toValue {s : Script} (h : 53 + s.args.length < 2 ^ 32) :
    serializeBytes s.toValue = .ok s.encode := by
  rw [serializeBytes, ofValue_toValue, ok_bind]
  exact Molecule.sized_eq_ok.mpr ⟨by rwa [length_encode], rfl⟩

end Script

namespace Hex

/-- `0x` and so many digits, in lower case. -/
def Written (count : Nat) (t : Text) : Prop :=
  ∃ s : List Char, t = .ofChars ('0' :: 'x' :: s) ∧ s.length = count ∧
    ∀ c ∈ s, c ∈ "0123456789abcdef".toList

theorem written_encode (b : Bytes) : Written (2 * b.length) (encode b) := by
  refine ⟨digits b, Text.ofString_ofList _, length_digits b, fun c hc => ?_⟩
  obtain ⟨n, hn, rfl⟩ := exists_digit_of_mem_digits hc
  interval_cases n <;> decide

end Hex

/-- A record that is good for a script: its fields are as they are always written, and it has a
serialisation and a hash. -/
structure Script.Usable (v : Value) : Prop where
  fields : ∃ codeHash hashType args : Text,
    v = .record [("codeHash", .str codeHash), ("hashType", .str hashType), ("args", .str args)] ∧
      Hex.Written 64 codeHash ∧
      hashType ∈ ["data", "type", "data1", "data2"].map Text.ofString ∧
      ∃ n, Hex.Written (2 * n) args
  serialized : ∃ t, Script.serialize v = .ok t
  hashed : ∃ t, Script.hashText v = .ok t

theorem Script.usable_toValue {s : Script} (h : 53 + s.args.length < 2 ^ 32) :
    Usable s.toValue := by
  have hbytes := serializeBytes_toValue h
  have hhash := Hex.written_encode s.codeHash.val
  rw [s.codeHash.property] at hhash
  refine ⟨⟨_, _, _, rfl, hhash, ?_, _, Hex.written_encode s.args⟩, ?_, ?_⟩
  · cases s.hashType <;> decide
  · exact ⟨_, by rw [serialize, hbytes, ok_bind, pure_eq_ok]⟩
  · exact ⟨_, by rw [hashText, hbytes, ok_bind, pure_eq_ok]⟩

namespace Address

/-! ## What a payload is read as -/

theorem shortCodeHash_cases {hrp : String} (h : hrp = "ckb" ∨ hrp = "ckt") (index : Int) :
    (∃ codeHash, shortCodeHash hrp index = .ok codeHash) ∨
      shortCodeHash hrp index = .error (.shortIndex (.int index)) := by
  unfold shortCodeHash
  split
  · exact .inl ⟨_, rfl⟩
  split
  · exact .inl ⟨_, rfl⟩
  split
  · rcases h with rfl | rfl
    · exact .inl ⟨payableMainLock, rfl⟩
    · exact .inl ⟨payableTestLock, rfl⟩
  · exact .inr rfl

/-- A long payload has a code hash. -/
theorem exists_payloadCodeHash (bytes : Bytes) (h : 33 ≤ bytes.length) :
    ∃ codeHash, payloadCodeHash bytes = .ok codeHash := by
  have hlen : ((bytes.drop 1).take 32).length = 32 := by
    rw [List.length_take, List.length_drop]
    omega
  exact ⟨⟨_, hlen⟩, dif_pos hlen⟩

/-- **A payload is read as a script, or refused, whatever text it comes from.** The arguments are
part of the payload. -/
theorem scriptOf_cases (hrp : String) (bytes : Bytes) :
    (∃ s : Script, s.args.length ≤ bytes.length ∧ ∀ a, scriptOf a hrp bytes = .ok s) ∨
      ∀ a, ∃ f, scriptOf a hrp bytes = .error f ∧ f.kind = .value := by
  have hdrop : ∀ n, (bytes.drop n).length ≤ bytes.length := fun n => by
    rw [List.length_drop]
    omega
  unfold scriptOf
  by_cases hguard : (hrp ≠ "ckb" ∧ hrp ≠ "ckt") ∨ bytes.length < 2
  · exact .inr fun a => ⟨.addressFormat a, by rw [if_pos hguard]; rfl, rfl⟩
  simp only [hguard, if_false]
  have hchain : hrp = "ckb" ∨ hrp = "ckt" := by
    by_contra hnone
    exact hguard (.inl (not_or.mp hnone))
  generalize (bytes.getD 0 0).toNat = format
  generalize bytes.getD 1 0 = index
  generalize bytes.getD 33 0 = typeByte
  by_cases hshort : format = 1
  · rcases shortCodeHash_cases hchain index.toNat with ⟨codeHash, hcode⟩ | hnone
    · exact .inl ⟨⟨codeHash, .type, bytes.drop 2⟩, hdrop 2, fun a => by simp [hshort, hcode]⟩
    · exact .inr fun a => ⟨.shortIndex (.int index.toNat), by simp [hshort, hnone], rfl⟩
  by_cases hlen : bytes.length < 34
  · exact .inr fun a => ⟨.addressPayload a, by simp [hshort, hlen], rfl⟩
  obtain ⟨codeHash, hcode⟩ := exists_payloadCodeHash bytes (by omega)
  by_cases hfull : format = 0
  · cases htype : HashType.ofByte? typeByte with
    | some t =>
      exact .inl ⟨⟨codeHash, t, bytes.drop 34⟩, hdrop 34, fun a => by
        simp [hfull, hlen, hcode]⟩
    | none => exact .inr fun a => ⟨.addressHashType a, by simp [hfull, hlen], rfl⟩
  by_cases hdata : format = 2
  · exact .inl ⟨⟨codeHash, .data, bytes.drop 33⟩, hdrop 33, fun a => by
      simp [hdata, hlen, hcode]⟩
  by_cases htype : format = 4
  · exact .inl ⟨⟨codeHash, .type, bytes.drop 33⟩, hdrop 33, fun a => by
      simp [htype, hlen, hcode]⟩
  · exact .inr fun a => ⟨.addressFormatType format, by
      simp [hshort, hlen, hfull, hdata, htype], rfl⟩

/-- A text and the same text in lower case have the same payload. -/
theorem payload_lower {a : Text} (h : a.IsAscii) :
    payload a.lower = match payload a with
      | .ok r => .ok r
      | .error _ => .error (.addressFormat a.lower) := by
  simp only [payload, Text.chars_lower h, Bech32.decode?_lower]
  split
  · rfl
  · rfl

theorem length_le_of_payload {a : Text} {hrp : String} {bytes : Bytes}
    (h : payload a = .ok (hrp, bytes)) : 8 * bytes.length ≤ 5 * a.points.length := by
  obtain ⟨variant, hread⟩ := exists_decode?_of_payload h
  have hlen := Bech32.length_le_of_decode? hread
  rwa [Text.chars, List.length_map] at hlen

theorem script_of_error {a : Text} {f : Fault} (h : payload a = .error f) :
    script a = .error f := by
  rw [script, h]
  rfl

/-- **Any text is refused as a wrong value, or read as a script that can be used;** an ASCII text
just like the same text in lower case. -/
theorem scriptValue_usable (a : Text) :
    ((∃ f, scriptValue (.str a) = .error f ∧ f.kind = .value) ∨
      ∃ v, scriptValue (.str a) = .ok v ∧ (a.points.length < 2 ^ 32 → Script.Usable v)) ∧
    (a.IsAscii →
      (∃ f g, scriptValue (.str a) = .error f ∧ f.kind = .value ∧
        scriptValue (.str a.lower) = .error g ∧ g.kind = .value) ∨
      ∃ v, scriptValue (.str a) = .ok v ∧ scriptValue (.str a.lower) = .ok v) := by
  simp only [scriptValue]
  cases hread : payload a with
  | error f =>
    obtain rfl := payload_eq_error hread
    rw [script_of_error hread]
    refine ⟨.inl ⟨_, rfl, rfl⟩, fun hascii => .inl ⟨_, .addressFormat a.lower, rfl, rfl, ?_, rfl⟩⟩
    rw [script_of_error (by rw [payload_lower hascii, hread]), map_error]
  | ok r =>
    obtain ⟨hrp, bytes⟩ := r
    have hlower : a.IsAscii → script a.lower = scriptOf a.lower hrp bytes := fun hascii =>
      script_of_payload (by rw [payload_lower hascii, hread])
    rw [script_of_payload hread]
    rcases scriptOf_cases hrp bytes with ⟨s, hargs, hs⟩ | hbad
    · have hlen := length_le_of_payload hread
      rw [hs, map_ok]
      refine ⟨.inr ⟨s.toValue, rfl, fun hsize => Script.usable_toValue (by omega)⟩,
        fun hascii => .inr ⟨s.toValue, rfl, ?_⟩⟩
      rw [hlower hascii, hs, map_ok]
    · obtain ⟨f, hf, hkind⟩ := hbad a
      obtain ⟨g, hg, hkind'⟩ := hbad a.lower
      rw [hf, map_error]
      refine ⟨.inl ⟨f, rfl, hkind⟩, fun hascii => .inl ⟨f, g, rfl, hkind, ?_, hkind'⟩⟩
      rw [hlower hascii, hg, map_error]

/-- A short address in capitals. -/
theorem scriptValue_usable_capitals :
    let a : Text := "CKT1QYQ0SCEJ4VN0UKA238M63AZCEL7CMCME7F2SXJ5SKA"
    a.lower ≠ a ∧ ∃ v, scriptValue (.str a) = .ok v ∧ scriptValue (.str a.lower) = .ok v ∧
      Script.Usable v := by
  intro a
  obtain ⟨v, hv⟩ := exists_of_isOk (x := scriptValue (.str a)) (by decide +kernel)
  obtain ⟨hread, hlower⟩ := scriptValue_usable a
  refine ⟨by decide, v, hv, ?_, ?_⟩
  · rcases hlower (by decide) with ⟨f, -, hf, -⟩ | ⟨v', hv', hlower⟩
    · rw [hv] at hf
      cases hf
    · rw [hlower, ← hv', hv]
  · rcases hread with ⟨f, hf, -⟩ | ⟨v', hv', husable⟩
    · rw [hv] at hf
      cases hf
    · obtain rfl := Except.ok.inj (hv.symm.trans hv')
      exact husable (by decide)

end Address
end CellNft
