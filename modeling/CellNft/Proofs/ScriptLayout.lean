/-
CellNft.Proofs.ScriptLayout — the serialisation of a script, byte by byte.

* `Script.layout` is the published layout: the size of the whole, three offsets, the code hash, the
  byte of the hash type, the length of the arguments, the arguments.
* `Script.Reads` is what a record says of a script: the bytes of its two texts of hex, and the name
  of the hash type.

`serialize_layout`: a record has a serialisation exactly if it reads as a code hash of 32 bytes, a
known hash type and arguments that leave the size below `2 ^ 32`; then it is that layout. Two records
have one serialisation exactly if they read the same, so it stands for one owner.

The encoder of tables knows no script and takes the offsets from the sizes of the items. Of the three
items only the last varies, which is why the offsets are constants (`encode_eq_layout`).
-/
import CellNft.Proofs.Decoding

namespace CellNft

open Outcome

namespace HashType

theorem name_injective {s t : HashType} (h : s.name = t.name) : s = t := by
  cases s <;> cases t <;> first | rfl | exact absurd h (by decide)

/-- A hash type is named by its name and by nothing else. -/
theorem ofValue_eq_ok {v : Value} {t : HashType} : ofValue v = .ok t ↔ v = .str t.name := by
  constructor
  · intro h
    cases v with
    | scalar s =>
      cases s with
      | str name =>
        rw [ofValue] at h
        split at h
        · rename_i u hu
          obtain rfl := Except.ok.inj h
          have hname := List.find?_some hu
          rw [decide_eq_true_eq.mp hname]
        · cases h
      | _ => cases h
    | _ => cases h
  · rintro rfl
    exact Script.ofValue_name t

end HashType

namespace Script

/-- The names of the hash types, with their bytes. -/
def typeBytes : List (String × UInt8) := [("data", 0), ("type", 1), ("data1", 2), ("data2", 4)]

theorem mem_typeBytes {name : String} {byte : UInt8} :
    (name, byte) ∈ typeBytes ↔ ∃ t : HashType, t.name = name ∧ t.byte = byte := by
  constructor
  · intro h
    simp only [typeBytes, List.mem_cons, Prod.mk.injEq, List.not_mem_nil, or_false] at h
    rcases h with ⟨rfl, rfl⟩ | ⟨rfl, rfl⟩ | ⟨rfl, rfl⟩ | ⟨rfl, rfl⟩
    · exact ⟨.data, rfl, rfl⟩
    · exact ⟨.type, rfl, rfl⟩
    · exact ⟨.data1, rfl, rfl⟩
    · exact ⟨.data2, rfl, rfl⟩
  · rintro ⟨t, rfl, rfl⟩
    cases t <;> decide

/-- What a record says of a script. -/
structure Reads (v : Value) (codeHash : Bytes) (hashType : String) (args : Bytes) : Prop where
  codeHash : ∃ shown, v.item "codeHash" = .ok shown ∧ Hex.decodeValue shown = .ok codeHash
  hashType : v.item "hashType" = .ok (.str hashType)
  args : ∃ shown, v.item "args" = .ok shown ∧ Hex.decodeValue shown = .ok args

/-- The serialisation of a script. Numbers are four bytes, lowest first. -/
def layout (codeHash : Bytes) (typeByte : UInt8) (args : Bytes) : Bytes :=
  Bytes.ofNatLE 4 (args.length + 53) ++ Bytes.ofNatLE 4 16 ++ Bytes.ofNatLE 4 48
    ++ Bytes.ofNatLE 4 49 ++ codeHash ++ [typeByte] ++ Bytes.ofNatLE 4 args.length ++ args

theorem encode_eq_layout (s : Script) : s.encode = layout s.codeHash.val s.hashType.byte s.args := by
  obtain ⟨⟨codeHash, hlen⟩, hashType, args⟩ := s
  have hsize : 4 + 4 * 3 + (32 + (1 + (4 + args.length))) = args.length + 53 := by omega
  simp only [encode, layout, Molecule.table, Molecule.offsets, Molecule.bytes, Molecule.size,
    List.length_cons, List.length_nil, List.flatten_cons, List.flatten_nil, List.length_append,
    List.append_nil, Bytes.length_ofNatLE, hlen, Nat.zero_add, Nat.reduceAdd, Nat.reduceMul,
    List.append_assoc, ← hsize]

/-- A script is what its record says. -/
theorem ofValue_eq_ok {v : Value} {s : Script} :
    ofValue v = .ok s ↔ Reads v s.codeHash.val s.hashType.name s.args := by
  constructor
  · intro h
    obtain ⟨hashShown, hhashShown, h⟩ := bind_eq_ok.mp h
    obtain ⟨codeHash, hcodeHash, h⟩ := bind_eq_ok.mp h
    obtain ⟨typeShown, htypeShown, h⟩ := bind_eq_ok.mp h
    obtain ⟨hashType, hhashType, h⟩ := bind_eq_ok.mp h
    obtain ⟨argsShown, hargsShown, h⟩ := bind_eq_ok.mp h
    obtain ⟨args, hargs, h⟩ := bind_eq_ok.mp h
    obtain ⟨hash32, hhash32, h⟩ := bind_eq_ok.mp h
    obtain rfl := Except.ok.inj h
    obtain rfl := Hash32.ofBytes_eq_ok.mp hhash32
    obtain rfl := HashType.ofValue_eq_ok.mp hhashType
    exact ⟨⟨hashShown, hhashShown, hcodeHash⟩, htypeShown, argsShown, hargsShown, hargs⟩
  · rintro ⟨⟨hashShown, hhashShown, hcodeHash⟩, htype, argsShown, hargsShown, hargs⟩
    have hhash32 : Hash32.ofBytes s.codeHash.val = .ok s.codeHash :=
      Hash32.ofBytes_eq_ok.mpr rfl
    simp only [ofValue, hhashShown, hcodeHash, htype, ofValue_name, hargsShown, hargs, hhash32,
      ok_bind, pure_eq_ok]

theorem serialize_eq_ok {v : Value} {t : String} :
    serialize v = .ok t ↔
      ∃ s, ofValue v = .ok s ∧ s.encode.length < 2 ^ 32 ∧ t = Hex.encode s.encode := by
  simp only [serialize, serializeBytes, bind_eq_ok, Molecule.sized_eq_ok, pure_eq_ok,
    Except.ok.injEq]
  constructor
  · rintro ⟨_, ⟨s, hs, hsize, rfl⟩, rfl⟩
    exact ⟨s, hs, hsize, rfl⟩
  · rintro ⟨s, hs, hsize, rfl⟩
    exact ⟨s.encode, ⟨s, hs, hsize, rfl⟩, rfl⟩

theorem serialize_eq_layout_iff {v : Value} {t : String} :
    serialize v = .ok t ↔ ∃ codeHash name byte args, Reads v codeHash name args ∧
      codeHash.length = 32 ∧ (name, byte) ∈ typeBytes ∧ args.length + 53 < 2 ^ 32 ∧
      t = Hex.encode (layout codeHash byte args) := by
  rw [serialize_eq_ok]
  constructor
  · rintro ⟨s, hs, hsize, rfl⟩
    rw [length_encode, Nat.add_comm] at hsize
    exact ⟨_, _, _, _, ofValue_eq_ok.mp hs, s.codeHash.property,
      mem_typeBytes.mpr ⟨s.hashType, rfl, rfl⟩, hsize, by rw [encode_eq_layout]⟩
  · rintro ⟨codeHash, name, byte, args, hreads, hlen, htype, hsize, rfl⟩
    obtain ⟨t, rfl, rfl⟩ := mem_typeBytes.mp htype
    refine ⟨⟨⟨codeHash, hlen⟩, t, args⟩, ofValue_eq_ok.mpr hreads, ?_, by rw [encode_eq_layout]⟩
    rw [length_encode, Nat.add_comm]
    exact hsize

/-- A record says one thing. -/
theorem Reads.unique {v : Value} {codeHash codeHash' args args' : Bytes} {name name' : String}
    (h : Reads v codeHash name args) (h' : Reads v codeHash' name' args') :
    codeHash = codeHash' ∧ name = name' ∧ args = args' := by
  obtain ⟨⟨c, hc, hcodeHash⟩, htype, a, ha, hargs⟩ := h
  obtain ⟨⟨c', hc', hcodeHash'⟩, htype', a', ha', hargs'⟩ := h'
  rw [hc, Except.ok.injEq] at hc'
  rw [ha, Except.ok.injEq] at ha'
  rw [htype] at htype'
  subst hc' ha'
  exact ⟨Except.ok.inj (hcodeHash.symm.trans hcodeHash'),
    Text.ofString_injective (Scalar.str.inj (Value.scalar.inj (Except.ok.inj htype'))),
    Except.ok.inj (hargs.symm.trans hargs')⟩

/-- Records with one serialisation read the same. -/
theorem serialize_eq_iff {v v' : Value} {t t' : String} (ht : serialize v = .ok t)
    (ht' : serialize v' = .ok t') {codeHash codeHash' args args' : Bytes} {name name' : String}
    (hreads : Reads v codeHash name args) (hreads' : Reads v' codeHash' name' args') :
    t = t' ↔ codeHash = codeHash' ∧ name = name' ∧ args = args' := by
  obtain ⟨s, hs, hsize, rfl⟩ := serialize_eq_ok.mp ht
  obtain ⟨s', hs', -, rfl⟩ := serialize_eq_ok.mp ht'
  obtain ⟨rfl, rfl, rfl⟩ := hreads.unique (ofValue_eq_ok.mp hs)
  obtain ⟨rfl, rfl, rfl⟩ := hreads'.unique (ofValue_eq_ok.mp hs')
  constructor
  · intro htext
    have hbytes : s.encode = s'.encode := by
      have hdecode := Hex.decode_encode s.encode
      rw [htext, Hex.decode_encode] at hdecode
      exact (Except.ok.inj hdecode).symm
    obtain rfl := encode_injective hsize hbytes
    exact ⟨rfl, rfl, rfl⟩
  · rintro ⟨hhash, hname, hargs⟩
    rw [encode_eq_layout, encode_eq_layout, hhash, HashType.name_injective hname, hargs]

/-- **A serialised script has the published layout, and stands for one script.** -/
theorem serialize_layout :
    (∀ v t, serialize v = .ok t ↔ ∃ codeHash name byte args, Reads v codeHash name args ∧
      codeHash.length = 32 ∧ (name, byte) ∈ typeBytes ∧ args.length + 53 < 2 ^ 32 ∧
      t = Hex.encode (layout codeHash byte args)) ∧
    ∀ v v' t t', serialize v = .ok t → serialize v' = .ok t' →
      ∀ codeHash name args codeHash' name' args', Reads v codeHash name args →
        Reads v' codeHash' name' args' →
          (t = t' ↔ codeHash = codeHash' ∧ name = name' ∧ args = args') :=
  ⟨fun _ _ => serialize_eq_layout_iff,
    fun _ _ _ _ ht ht' _ _ _ _ _ _ hreads hreads' => serialize_eq_iff ht ht' hreads hreads'⟩

/-- A script in capitals is the script in small letters, and not the one with a longer argument. -/
theorem serialize_layout_capitals :
    let script (codeHash args : String) : Value := .record [
      ("codeHash", .str codeHash), ("hashType", .str "data1"), ("args", .str args)]
    let capitals := script (String.ofList ('0' :: 'x' :: List.replicate 64 'A')) "0xFF"
    let small := script (String.ofList ('0' :: 'x' :: List.replicate 64 'a')) " ff"
    let longer := script (String.ofList ('0' :: 'x' :: List.replicate 64 'a')) "0xff00"
    serialize capitals = .ok (Hex.encode (layout (List.replicate 32 0xaa) 2 [0xff])) ∧
      serialize capitals = serialize small ∧ serialize capitals ≠ serialize longer := by
  intro script capitals small longer
  obtain ⟨hlayout, hcommits⟩ := serialize_layout
  have hcapitals : Reads capitals (List.replicate 32 0xaa) "data1" [0xff] :=
    ⟨⟨_, rfl, rfl⟩, rfl, _, rfl, rfl⟩
  have hsmall : Reads small (List.replicate 32 0xaa) "data1" [0xff] :=
    ⟨⟨_, rfl, rfl⟩, rfl, _, rfl, rfl⟩
  have hlonger : Reads longer (List.replicate 32 0xaa) "data1" [0xff, 0] :=
    ⟨⟨_, rfl, rfl⟩, rfl, _, rfl, rfl⟩
  have hok := (hlayout capitals _).mpr ⟨_, _, 2, _, hcapitals, rfl, by decide, by decide, rfl⟩
  have hok' := (hlayout small _).mpr ⟨_, _, 2, _, hsmall, rfl, by decide, by decide, rfl⟩
  have hok'' := (hlayout longer _).mpr ⟨_, _, 2, _, hlonger, rfl, by decide, by decide, rfl⟩
  refine ⟨hok, ?_, fun heq => ?_⟩
  · rw [hok, hok', (hcommits _ _ _ _ hok hok' _ _ _ _ _ _ hcapitals hsmall).mpr ⟨rfl, rfl, rfl⟩]
  · rw [hok, hok''] at heq
    obtain ⟨-, -, hargs⟩ := (hcommits _ _ _ _ hok hok'' _ _ _ _ _ _ hcapitals hlonger).mp
      (Except.ok.inj heq)
    exact absurd hargs (by decide)

end Script
end CellNft
