/-
CellNft.Proofs.Address — addresses are read as they were written, and not with a typo.

* `scriptValue_written`: a full address of a script is read as that script, and a short address as
  the script with the code hash that its index names. Arguments may have any length.
* `scriptValue_typo`: an address in which one character was changed is refused, wherever that
  character stands and whatever it became.

Reading tries the two checksums in turn. The first theorem needs that a text which is right for one
variant is not taken for the other (`Bech32.decode?_encode_of_ne`). The second needs it of a changed
text too, which is `Bech32.Sealed.changed`. That leaves a change in the human readable part. Only
one such change leads from one chain to the other, and it is a change of one word of the checksum,
too (`polymod_ne_of_chains`).
-/
import CellNft.Address.Payload
import CellNft.Proofs.Bech32
import CellNft.Proofs.Hex
import CellNft.Proofs.RawTransaction
import Mathlib.Tactic.IntervalCases

namespace CellNft

open Outcome

namespace Address

/-! ## Writing -/

/-- The chain that an address is for. -/
inductive Chain where
  | main | test
deriving DecidableEq

/-- The human readable part of the addresses of a chain. -/
def Chain.name : Chain → String
  | main => "ckb"
  | test => "ckt"

theorem Chain.plain (chain : Chain) : Bech32.Plain chain.name.toList := by
  cases chain
  · exact ⟨by decide, by simp [name]⟩
  · exact ⟨by decide, by simp [name]⟩

/-- The address with a payload. -/
def ofPayload (variant : Bech32.Variant) (chain : Chain) (payload : Bytes) : Text :=
  .ofChars (Bech32.encode variant chain.name.toList payload)

/-- The full address of a script. -/
def full (chain : Chain) (s : Script) : Text :=
  ofPayload .bech32m chain (0 :: (s.codeHash.val ++ s.hashType.byte :: s.args))

/-- The short address with an index. -/
def short (chain : Chain) (index : Fin 3) (args : Bytes) : Text :=
  ofPayload .bech32 chain (1 :: UInt8.ofNat index :: args)

/-! ## Reading what was written -/

/-- What is written for either variant is read. -/
theorem payload_ofPayload (variant : Bech32.Variant) (chain : Chain) (bytes : Bytes) :
    payload (ofPayload variant chain bytes) = .ok (chain.name, bytes) := by
  have hread := Bech32.decode?_encode variant chain.plain bytes
  rw [payload, ofPayload, Text.chars_ofChars]
  cases variant with
  | bech32m =>
    rw [hread]
    simp only [Option.orElse_some, String.ofList_toList]
  | bech32 =>
    have hne : Bech32.Variant.bech32 ≠ .bech32m := by decide
    rw [Bech32.decode?_encode_of_ne hne chain.plain bytes, hread]
    simp only [Option.orElse_none, String.ofList_toList]

theorem script_of_payload {address : Text} {hrp : String} {bytes : Bytes}
    (h : payload address = .ok (hrp, bytes)) : script address = scriptOf address hrp bytes := by
  rw [script, h]
  rfl

theorem ofByte?_byte (t : HashType) : HashType.ofByte? t.byte = some t := by
  cases t <;> decide

/-- The human readable part of a chain and two bytes are enough to look at the format. -/
theorem chain_guard (chain : Chain) (bytes : Bytes) (h : 2 ≤ bytes.length) :
    ¬ ((chain.name ≠ "ckb" ∧ chain.name ≠ "ckt") ∨ bytes.length < 2) := by
  rintro (⟨hmain, htest⟩ | hshort)
  · cases chain
    · exact hmain rfl
    · exact htest rfl
  · omega

theorem scriptOf_full (address : Text) (chain : Chain) (s : Script) :
    scriptOf address chain.name (0 :: (s.codeHash.val ++ s.hashType.byte :: s.args)) = .ok s := by
  obtain ⟨⟨hash, hhash⟩, hashType, args⟩ := s
  have hlen : (0 :: (hash ++ hashType.byte :: args)).length = 34 + args.length := by
    simp only [List.length_cons, List.length_append, hhash]
    omega
  have hguard := chain_guard chain (0 :: (hash ++ hashType.byte :: args)) (by omega)
  have hlong : ¬ (0 :: (hash ++ hashType.byte :: args)).length < 34 := by omega
  have hformat : ((0 :: (hash ++ hashType.byte :: args)).getD 0 0).toNat = 0 := rfl
  have htype : (0 :: (hash ++ hashType.byte :: args)).getD 33 0 = hashType.byte := by
    rw [List.getD_cons_succ, List.getD_append_right _ _ _ _ (by omega), hhash]
    rfl
  have hcode : payloadCodeHash (0 :: (hash ++ hashType.byte :: args)) = .ok ⟨hash, hhash⟩ := by
    rw [payloadCodeHash, List.drop_one, List.tail_cons, List.take_left' hhash, Hash32.ofBytes,
      dif_pos hhash]
  have hargs : (0 :: (hash ++ hashType.byte :: args)).drop 34 = args := by
    rw [List.drop_succ_cons, List.drop_append, hhash, List.drop_of_length_le (by omega)]
    rfl
  rw [scriptOf, if_neg hguard]
  simp only [hformat, hlong, htype, ofByte?_byte, hcode, hargs, Nat.zero_ne_one, if_false, if_true,
    ok_bind, pure_eq_ok]

theorem scriptOf_short (address : Text) (chain : Chain) (index : Fin 3) {codeHash : Hash32}
    (h : shortCodeHash chain.name (index : Nat) = .ok codeHash) (args : Bytes) :
    scriptOf address chain.name (1 :: UInt8.ofNat index :: args)
      = .ok ⟨codeHash, .type, args⟩ := by
  have hguard := chain_guard chain (1 :: UInt8.ofNat index :: args) (by simp)
  have hformat : ((1 :: UInt8.ofNat index :: args).getD 0 0).toNat = 1 := rfl
  have hindex : ((1 :: UInt8.ofNat index :: args).getD 1 0).toNat = index := by
    have := index.isLt
    rw [List.getD_cons_succ, List.getD_cons_zero, UInt8.toNat_ofNat']
    omega
  rw [scriptOf, if_neg hguard]
  simp only [hformat, hindex, h, if_true, ok_bind, pure_eq_ok]
  rfl

/-- The three short indexes name a code hash on each chain. -/
theorem exists_shortCodeHash (chain : Chain) (index : Fin 3) :
    ∃ codeHash, shortCodeHash chain.name (index : Nat) = .ok codeHash := by
  have hall : ∀ index : Fin 3, (shortCodeHash chain.name (index : Nat)).isOk = true := by
    cases chain <;> decide
  exact exists_of_isOk (hall index)

/-- **An address is read as what it was written for:** a full address as its script, a short one as
the script with the code hash of its index. Only the last index means another code hash on another
chain. -/
theorem scriptValue_written (chain : Chain) :
    (∀ s : Script, scriptValue (.str (full chain s)) = .ok s.toValue) ∧
    (∀ (index : Fin 3) (args : Bytes), ∃ codeHash,
      shortCodeHash chain.name (index : Nat) = .ok codeHash ∧
      scriptValue (.str (short chain index args)) = .ok (Script.toValue ⟨codeHash, .type, args⟩)) ∧
    ∀ index : Fin 3, shortCodeHash "ckb" (index : Nat) = shortCodeHash "ckt" (index : Nat) ↔
      (index : Nat) ≠ 2 := by
  refine ⟨fun s => ?_, fun index args => ?_, fun index => ?_⟩
  · rw [scriptValue, full, script_of_payload (payload_ofPayload _ _ _), scriptOf_full, map_ok]
  · obtain ⟨codeHash, hcode⟩ := exists_shortCodeHash chain index
    refine ⟨codeHash, hcode, ?_⟩
    rw [scriptValue, short, script_of_payload (payload_ofPayload _ _ _),
      scriptOf_short _ chain index hcode, map_ok]
  · obtain ⟨i, hi⟩ := index
    interval_cases i
    · exact ⟨fun _ => Nat.zero_ne_add_one 1, fun _ => rfl⟩
    · exact ⟨fun _ => Nat.succ_ne_succ_iff.mpr Nat.zero_ne_one, fun _ => rfl⟩
    · refine ⟨fun h => ?_, fun h => absurd rfl h⟩
      have hlocks : payableMainLock = payableTestLock := Except.ok.inj h
      exact absurd hlocks (by decide)

/-- A short address and a full one. -/
example :
    short .test 0 (Bytes.ofNatBE 20 0xf86332ab26fe5baa89f7a8f458cffd8de379f255)
      = "ckt1qyq0scej4vn0uka238m63azcel7cmcme7f2sxj5ska" ∧
    full .test ⟨singleKeyLock, .type, Bytes.ofNatBE 20 0x75178f34549c5fe9cd1a0c57aebd01e7ddf9249e⟩
      = .ofString ("ckt1qzda0cr08m85hc8jlnfp3zer7xulejywt49kt2rr0vthywaa50xwsqt4z78ng4yutl5u6x"
        ++ "sv27ht6q08mhujf8s2r0n40") := by
  decide +kernel

/-! ## Typos -/

/-- Whether two code points are the same, but for the case of an ASCII letter. -/
def sameLetter : CodePoint → CodePoint → Bool
  | .char c, .char d => c.toLower = d.toLower
  | p, q => p = q

/-- The second text is the first one with one code point changed, and not only in its case. -/
def Typo (a b : Text) : Prop :=
  ∃ front p q behind, a.points = front ++ p :: behind ∧ b.points = front ++ q :: behind ∧
    sameLetter p q = false

/-- What is read is right for one of the two variants. -/
theorem exists_decode?_of_payload {address : Text} {hrp : String} {bytes : Bytes}
    (h : payload address = .ok (hrp, bytes)) :
    ∃ variant, Bech32.decode? variant address.chars = some (hrp.toList, bytes) := by
  rw [payload] at h
  split at h
  · rename_i hrp' bytes' hread
    obtain ⟨rfl, rfl⟩ := Prod.mk.inj (Except.ok.inj h)
    rw [String.toList_ofList]
    cases hm : Bech32.decode? .bech32m address.chars with
    | some r =>
      rw [hm, Option.orElse_some] at hread
      exact ⟨.bech32m, hm.trans hread⟩
    | none =>
      rw [hm, Option.orElse_none] at hread
      exact ⟨.bech32, hread⟩
  · cases h

theorem payload_eq_ok {address : Text} {hrp : String} {bytes : Bytes}
    (h : payload address = .ok (hrp, bytes)) :
    ∃ variant words, Bech32.Sealed variant address.chars hrp.toList words := by
  obtain ⟨variant, hread⟩ := exists_decode?_of_payload h
  obtain ⟨words, hsealed, -⟩ := Bech32.decode?_eq_some_iff.mp hread
  exact ⟨variant, words, hsealed⟩

theorem payload_eq_error {address : Text} {f : Fault} (h : payload address = .error f) :
    f = .addressFormat address := by
  rw [payload] at h
  split at h
  · cases h
  · exact (Except.error.inj h).symm

/-- A payload that is understood is one for a chain. -/
theorem exists_chain_of_scriptOf (address : Text) (hrp : String) (bytes : Bytes) :
    scriptOf address hrp bytes = .error (.addressFormat address) ∨
      ∃ chain : Chain, hrp = chain.name := by
  by_cases hguard : (hrp ≠ "ckb" ∧ hrp ≠ "ckt") ∨ bytes.length < 2
  · left
    rw [scriptOf, if_pos hguard]
    rfl
  · right
    by_cases hmain : hrp = "ckb"
    · exact ⟨.main, hmain⟩
    · by_cases htest : hrp = "ckt"
      · exact ⟨.test, htest⟩
      · exact absurd (.inl ⟨hmain, htest⟩) hguard

/-- The same words are not right for both chains. -/
theorem polymod_ne_of_chains {chain chain' : Chain} {words : List Nat} {v : Bech32.Variant}
    (hne : chain ≠ chain')
    (h : Bech32.polymod (Bech32.expand chain.name.toList ++ words) = v.constant)
    (v' : Bech32.Variant) :
    Bech32.polymod (Bech32.expand chain'.name.toList ++ words) ≠ v'.constant := by
  have hmain : Bech32.expand Chain.main.name.toList = [3, 3, 3, 0, 3, 11] ++ [2] := by decide
  have htest : Bech32.expand Chain.test.name.toList = [3, 3, 3, 0, 3, 11] ++ [20] := by decide
  cases chain <;> cases chain'
  · exact absurd rfl hne
  · rw [hmain, List.append_assoc] at h
    rw [htest, List.append_assoc]
    exact Bech32.polymod_ne_of_changed (by decide) (by decide) (by decide) h v'
  · rw [htest, List.append_assoc] at h
    rw [hmain, List.append_assoc]
    exact Bech32.polymod_ne_of_changed (by decide) (by decide) (by decide) h v'
  · exact absurd rfl hne

/-- Two right texts for chains are no typo of each other. -/
theorem not_typo_of_sealed {a b : Text} {chain chain' : Chain} {v v' : Bech32.Variant}
    {words words' : List Nat} (h : Bech32.Sealed v a.chars chain.name.toList words)
    (h' : Bech32.Sealed v' b.chars chain'.name.toList words') : ¬ Typo a b := by
  rintro ⟨front, p, q, behind, ha, hb, hpq⟩
  rw [Text.chars, ha, List.map_append, List.map_cons] at h
  rw [Text.chars, hb, List.map_append, List.map_cons] at h'
  -- Halves of surrogate pairs are not visible.
  have hchar : ∀ r : CodePoint, r.toChar.toNat ≤ 126 → ∃ c, r = .char c := by
    intro r hr
    cases r with
    | char c => exact ⟨c, rfl⟩
    | half n => simp [CodePoint.toChar] at hr
  obtain ⟨c, rfl⟩ := hchar p (h.visible _ (by simp)).2
  obtain ⟨d, rfl⟩ := hchar q (h'.visible _ (by simp)).2
  have hne : c.toLower ≠ d.toLower := by simpa [sameLetter] using hpq
  have hlen : chain.name.toList.length = chain'.name.toList.length := by
    cases chain <;> cases chain' <;> decide
  obtain ⟨hchains, rfl⟩ := h.changed h' hlen hne
  have hother : chain ≠ chain' := by
    rintro rfl
    exact hchains rfl
  exact polymod_ne_of_chains hother h.remainder v' h'.remainder

/-- **An address with a typo is refused,** wherever the typo is. -/
theorem scriptValue_typo {a b : Text} {v : Value} (ha : scriptValue (.str a) = .ok v)
    (hab : Typo a b) : scriptValue (.str b) = .error (.addressFormat b) ∧
      (Fault.addressFormat b).kind = .value := by
  refine ⟨?_, rfl⟩
  obtain ⟨s, hs, -⟩ := map_eq_ok.mp ha
  obtain ⟨⟨hrp, bytes⟩, hread, -⟩ := bind_eq_ok.mp hs
  rw [script_of_payload hread] at hs
  obtain ⟨variant, words, hsealed⟩ := payload_eq_ok hread
  rcases exists_chain_of_scriptOf a hrp bytes with herror | ⟨chain, rfl⟩
  · rw [herror] at hs
    cases hs
  rw [scriptValue]
  cases hread' : payload b with
  | error f =>
    rw [script, hread', payload_eq_error hread']
    rfl
  | ok read =>
    obtain ⟨hrp', bytes'⟩ := read
    obtain ⟨variant', words', hsealed'⟩ := payload_eq_ok hread'
    rw [script_of_payload hread']
    rcases exists_chain_of_scriptOf b hrp' bytes' with herror' | ⟨chain', rfl⟩
    · rw [herror']
      rfl
    · exact absurd hab (not_typo_of_sealed hsealed hsealed')

/-- A full address with the other chain's human readable part. -/
theorem scriptValue_typo_chain :
    let s : Script := ⟨singleKeyLock, .type, [1, 2, 3]⟩
    ∃ a b v, scriptValue (.str a) = .ok v ∧ Typo a b ∧
      a = full .main s ∧ scriptValue (.str b) = .error (.addressFormat b) := by
  intro s
  obtain ⟨v, hv⟩ := exists_of_isOk (x := scriptValue (.str (full .main s))) (by decide +kernel)
  let b : Text := ⟨(full .main s).points.set 2 (.char 't')⟩
  have hab : Typo (full .main s) b :=
    ⟨[.char 'c', .char 'k'], .char 'b', .char 't', (full .main s).points.drop 3, by decide +kernel,
      by decide +kernel, by decide⟩
  exact ⟨full .main s, b, v, hv, hab, rfl, (scriptValue_typo hv hab).1⟩

end Address
end CellNft
