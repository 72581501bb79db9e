/-
CellNft.Proofs.Formats — the older full addresses, and which checksum goes with which format.

* `scriptValue_older`: an address in one of the two older full formats is read as its script, unless
  it has no arguments. The guard on the length of a payload counts the byte of the hash type, which
  these formats do not have.
* `scriptValue_either`: a text that is read has one payload and one checksum. Whether that checksum
  goes with the format of the payload makes no difference to reading, for written with the other
  checksum the payload is read as the same script.

What a payload is read as does not depend on the text (`scriptOf_cases`), and the text not on the
variant in which it is right (`payload_of_carries`). So the format and the checksum never meet.
-/
import CellNft.Proofs.Decoding

namespace CellNft

open Outcome

namespace Address

/-! ## The older full formats -/

/-- The older formats of a full address. The format byte implies the hash type. -/
inductive Older where
  | data | type
deriving DecidableEq

namespace Older

def byte : Older → UInt8
  | data => 2
  | type => 4

def hashType : Older → HashType
  | data => .data
  | type => .type

end Older

/-- The full address of a script in an older format. -/
def older (chain : Chain) (format : Older) (codeHash : Hash32) (args : Bytes) : Text :=
  ofPayload .bech32 chain (format.byte :: (codeHash.val ++ args))

/-- The guard of 34 bytes refuses the shortest of these payloads. -/
theorem scriptOf_older (address : Text) (chain : Chain) (format : Older) (codeHash : Hash32)
    (args : Bytes) : scriptOf address chain.name (format.byte :: (codeHash.val ++ args)) =
      if args = [] then .error (.addressPayload address)
      else .ok ⟨codeHash, format.hashType, args⟩ := by
  obtain ⟨hash, hhash⟩ := codeHash
  have hlen : (format.byte :: (hash ++ args)).length = 33 + args.length := by
    simp only [List.length_cons, List.length_append, hhash]
    omega
  have hguard := chain_guard chain (format.byte :: (hash ++ args)) (by omega)
  have hformat : ((format.byte :: (hash ++ args)).getD 0 0).toNat = format.byte.toNat := rfl
  have hcode : payloadCodeHash (format.byte :: (hash ++ args)) = .ok ⟨hash, hhash⟩ := by
    rw [payloadCodeHash, List.drop_one, List.tail_cons, List.take_left' hhash, Hash32.ofBytes,
      dif_pos hhash]
  have hargs : (format.byte :: (hash ++ args)).drop 33 = args := by
    rw [List.drop_succ_cons, List.drop_left' hhash]
  have hshort : (format.byte :: (hash ++ args)).length < 34 ↔ args = [] := by
    rw [hlen, ← List.length_eq_zero_iff]
    omega
  rw [scriptOf, if_neg hguard]
  by_cases hnone : args = []
  · rw [if_pos hnone, hformat]
    simp only [hshort.mpr hnone, if_true]
    cases format <;> rfl
  · rw [if_neg hnone, hformat]
    simp only [mt hshort.mp hnone, if_false, hcode, hargs, ok_bind, pure_eq_ok]
    cases format <;> rfl

/-- **An older full address is read as its script, if it has arguments.** -/
theorem scriptValue_older (chain : Chain) (format : Older) (codeHash : Hash32) (args : Bytes) :
    scriptValue (.str (older chain format codeHash args)) =
      if args = [] then .error (.addressPayload (older chain format codeHash args))
      else .ok (Script.toValue ⟨codeHash, format.hashType, args⟩) := by
  rw [scriptValue, older, script_of_payload (payload_ofPayload _ _ _), scriptOf_older]
  split
  · rw [map_error]
  · rw [map_ok]

/-- One without arguments is refused, though it is well written. -/
theorem scriptValue_older_bare :
    let a := older .test .type singleKeyLock []
    a = "ckt1qjda0cr08m85hc8jlnfp3zer7xulejywt49kt2rr0vthywaa50xws4w7gwn" ∧
      scriptValue (.str a) = .error (.addressPayload a) := by
  refine ⟨by decide +kernel, ?_⟩
  rw [scriptValue, older, script_of_payload (payload_ofPayload _ _ _), scriptOf_older, if_pos rfl,
    map_error]

/-! ## Checksums -/

/-- The checksum that goes with a format byte. -/
def checksumOf (format : UInt8) : Bech32.Variant := if format = 0 then .bech32m else .bech32

/-- A text has a payload, and behind it a right checksum of a variant. -/
def Carries (a : Text) (variant : Bech32.Variant) (bytes : Bytes) : Prop :=
  ∃ hrp, Bech32.decode? variant a.chars = some (hrp, bytes)

/-- A text has no checksum but the one that goes with its format. -/
def Bound (a : Text) : Prop :=
  ∀ variant format rest, Carries a variant (format :: rest) → format ∈ [0, 1, 2, 4] →
    variant = checksumOf format

end Address

/-- A text is right for one variant, and has one human readable part and one payload. -/
theorem Bech32.decode?_unique {v v' : Variant} {text : List Char} {r r' : List Char × Bytes}
    (h : decode? v text = some r) (h' : decode? v' text = some r') : v = v' ∧ r = r' := by
  obtain ⟨words, hsealed, hbytes⟩ := decode?_eq_some_iff.mp h
  obtain ⟨words', hsealed', hbytes'⟩ := decode?_eq_some_iff.mp h'
  obtain ⟨hhrp, rfl⟩ := hsealed.unique hsealed'
  have hremainder := hsealed'.remainder
  rw [← hhrp, hsealed.remainder] at hremainder
  exact ⟨Variant.constant_injective hremainder,
    Prod.ext hhrp (Option.some.inj (hbytes.symm.trans hbytes'))⟩

namespace Address

theorem carries_ofPayload (variant : Bech32.Variant) (chain : Chain) (bytes : Bytes) :
    Carries (ofPayload variant chain bytes) variant bytes := by
  refine ⟨chain.name.toList, ?_⟩
  rw [ofPayload, Text.chars_ofChars]
  exact Bech32.decode?_encode variant chain.plain bytes

/-- A text that carries something is bound if and only if it is what should be carried. -/
theorem Carries.bound_iff {a : Text} {variant : Bech32.Variant} {format : UInt8} {rest : Bytes}
    (h : Carries a variant (format :: rest)) (known : format ∈ [0, 1, 2, 4]) :
    Bound a ↔ variant = checksumOf format := by
  refine ⟨fun hbound => hbound variant format rest h known, ?_⟩
  rintro rfl variant' format' rest' ⟨hrp', h'⟩ -
  obtain ⟨hrp, h⟩ := h
  obtain ⟨rfl, hbytes⟩ := Bech32.decode?_unique h h'
  rw [(List.cons.inj (Prod.mk.inj hbytes).2).1]

/-- Only payloads of four formats are read. -/
theorem exists_format_of_scriptOf {a : Text} {hrp : String} {bytes : Bytes} {s : Script}
    (h : scriptOf a hrp bytes = .ok s) :
    ∃ format rest, bytes = format :: rest ∧ format ∈ [0, 1, 2, 4] := by
  cases bytes with
  | nil =>
    rw [scriptOf, if_pos (.inr Nat.zero_lt_two)] at h
    cases h
  | cons format rest =>
    refine ⟨format, rest, rfl, ?_⟩
    by_contra hunknown
    have hother : ∀ known ∈ ([0, 1, 2, 4] : Bytes), format.toNat ≠ known.toNat := by
      intro known hknown heq
      exact hunknown (UInt8.toNat_inj.mp heq ▸ hknown)
    have hfull : format.toNat ≠ 0 := hother 0 (by decide)
    have hshort : format.toNat ≠ 1 := hother 1 (by decide)
    have hdata : format.toNat ≠ 2 := hother 2 (by decide)
    have htype : format.toNat ≠ 4 := hother 4 (by decide)
    rw [scriptOf] at h
    split at h
    · cases h
    · simp only [List.getD_cons_zero, hfull, hshort, hdata, htype, if_false] at h
      split at h <;> cases h

/-- **Which checksum a text has does not matter to reading.** Only its own is right, and it is bound
if that is the one of its format. Its payload is read as the same script behind either. -/
theorem scriptValue_either {a : Text} {v : Value} (h : scriptValue (.str a) = .ok v) :
    ∃ (chain : Chain) (variant : Bech32.Variant) (format : UInt8) (rest : Bytes),
      format ∈ [0, 1, 2, 4] ∧
      (∀ variant' bytes, Carries a variant' bytes ↔ variant' = variant ∧ bytes = format :: rest) ∧
      (Bound a ↔ variant = checksumOf format) ∧
      ∀ variant', scriptValue (.str (ofPayload variant' chain (format :: rest))) = .ok v ∧
        (Bound (ofPayload variant' chain (format :: rest)) ↔ variant' = checksumOf format) := by
  obtain ⟨s, hs, rfl⟩ := map_eq_ok.mp h
  obtain ⟨⟨hrp, bytes⟩, hread, -⟩ := bind_eq_ok.mp hs
  rw [script_of_payload hread] at hs
  obtain ⟨variant, hdecode⟩ := exists_decode?_of_payload hread
  obtain ⟨format, rest, rfl, hformat⟩ := exists_format_of_scriptOf hs
  obtain ⟨chain, rfl⟩ : ∃ chain : Chain, hrp = chain.name := by
    rcases exists_chain_of_scriptOf a hrp (format :: rest) with herror | hchain
    · rw [hs] at herror
      cases herror
    · exact hchain
  have hall : ∀ b, scriptOf b chain.name (format :: rest) = .ok s := by
    rcases scriptOf_cases chain.name (format :: rest) with ⟨s', -, hok⟩ | hbad
    · intro b
      rw [hok, ← hok a, hs]
    · obtain ⟨f, hf, -⟩ := hbad a
      rw [hs] at hf
      cases hf
  have hcarries : Carries a variant (format :: rest) := ⟨_, hdecode⟩
  refine ⟨chain, variant, format, rest, hformat, fun variant' bytes => ⟨?_, ?_⟩,
    hcarries.bound_iff hformat, fun variant' => ⟨?_, (carries_ofPayload ..).bound_iff hformat⟩⟩
  · rintro ⟨hrp', hdecode'⟩
    obtain ⟨hvariant, hbytes⟩ := Bech32.decode?_unique hdecode' hdecode
    exact ⟨hvariant, (Prod.mk.inj hbytes).2⟩
  · rintro ⟨rfl, rfl⟩
    exact hcarries
  · rw [scriptValue, script_of_payload (payload_ofPayload _ _ _), hall, map_ok]

/-- A full address with the other checksum, which is right for it as it is for a short one. -/
theorem not_bound_full :
    let s : Script :=
      ⟨singleKeyLock, .type, Bytes.ofNatBE 20 0x75178f34549c5fe9cd1a0c57aebd01e7ddf9249e⟩
    let a := ofPayload .bech32 .test (0 :: (s.codeHash.val ++ s.hashType.byte :: s.args))
    a = .ofString ("ckt1qzda0cr08m85hc8jlnfp3zer7xulejywt49kt2rr0vthywaa50xwsqt4z78ng4yutl5u6x"
      ++ "sv27ht6q08mhujf8sllllsd") ∧ scriptValue (.str a) = .ok s.toValue ∧ ¬Bound a := by
  intro s a
  refine ⟨by decide +kernel, ?_, fun hbound => ?_⟩
  · rw [scriptValue, script_of_payload (payload_ofPayload _ _ _), scriptOf_full, map_ok]
  · exact absurd (hbound _ _ _ (carries_ofPayload ..) (by decide)) (by decide)

/-- The same address in capitals. Its script has a bound address, too. -/
theorem scriptValue_either_capitals :
    let a : Text := .ofString ("CKT1QZDA0CR08M85HC8JLNFP3ZER7XULEJYWT49KT2RR0VTHYWAA50XWSQT4Z78NG"
      ++ "4YUTL5U6XSV27HT6Q08MHUJF8SLLLLSD")
    ∃ b v, scriptValue (.str a) = .ok v ∧ ¬Bound a ∧ scriptValue (.str b) = .ok v ∧ Bound b := by
  intro a
  obtain ⟨v, hv⟩ := exists_of_isOk (x := scriptValue (.str a)) (by decide +kernel)
  have hcarried : (Bech32.decode? .bech32 a.chars).map (·.2.head?) = some (some 0) := by
    decide +kernel
  obtain ⟨⟨hrp, bytes⟩, hdecode, hhead⟩ := Option.map_eq_some_iff.mp hcarried
  obtain ⟨chain, variant, format, rest, -, hcarries, hbound, hwritten⟩ := scriptValue_either hv
  obtain ⟨rfl, rfl⟩ := (hcarries _ _).mp ⟨hrp, hdecode⟩
  obtain rfl : format = 0 := Option.some.inj hhead
  obtain ⟨hread, hsealed⟩ := hwritten .bech32m
  exact ⟨_, v, hv, mt hbound.mp (by decide), hread, hsealed.mpr (by decide)⟩

end Address
end CellNft
