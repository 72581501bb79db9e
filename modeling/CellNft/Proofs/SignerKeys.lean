/-
CellNft.Proofs.SignerKeys — the private keys of accounts that may sign.

A key is looked at twice, by readers of two grammars. When accounts are loaded, what is shown of a
key must be `0x` and 64 digits, and one line feed may follow. When the key is used, it must be a
text, and is read as hex.

`signer_usable`: what passes the first reader passes the second. So using such a key can fail in one
way only, which is that its number is out of the range of private keys (`OnlyRange`).

* `Hex.exists_bytes_of_isHash32Text`: the line feed that is let through is a blank behind the pairs.
* `Settings.exists_bytes_of_isKey`: what is taken for a key is a text. Nothing else that a document
  may hold is shown with a mark in front.
* `Signing.sign_cases`: a transaction fails by itself, or every key that can be read signs it.
-/
import CellNft.Proofs.Display
import CellNft.Proofs.HexGrammar
import CellNft.Proofs.LockFrame
import CellNft.Settings

namespace CellNft

open Outcome

/-! ## The text of a key -/

namespace Hex

theorem paired_of_digits : ∀ {s : List Char} {n : Nat}, s.length = 2 * n →
    (∀ c ∈ s, IsDigit c) → Paired s
  | [], _, _, _ => .nil
  | [_], n, hlength, _ => by
      rw [List.length_singleton] at hlength
      omega
  | c :: d :: rest, n, hlength, h => by
      obtain ⟨hc, hd, hrest⟩ := List.forall_mem_cons.mp h |>.imp_right List.forall_mem_cons.mp
      rw [List.length_cons, List.length_cons] at hlength
      exact .pair hc hd (paired_of_digits (by omega : rest.length = 2 * (n - 1)) hrest)

theorem Paired.append {s t : List Char} (hs : Paired s) (ht : Paired t) : Paired (s ++ t) := by
  induction hs with
  | nil => exact ht
  | blank hc _ ih => exact .blank hc ih
  | pair hc hd _ ih => exact .pair hc hd ih

theorem squeezed_append (s t : List Char) : squeezed (s ++ t) = squeezed s ++ squeezed t := by
  rw [squeezed, List.filter_append, List.map_append]
  rfl

theorem length_squeezed_of_digits {s : List Char} (h : ∀ c ∈ s, IsDigit c) :
    (squeezed s).length = s.length := by
  have hnone : ∀ c ∈ s, ¬IsBlank c := fun c hc => by
    obtain ⟨_, -, -, -, hblank⟩ := (h c hc).exists_digit
    exact hblank
  rw [squeezed, List.length_map, List.filter_eq_self.mpr fun c hc => decide_eq_true (hnone c hc)]

/-- The text of a hash is read as 32 bytes, also with a line feed behind it. -/
theorem exists_bytes_of_isHash32Text {t : Text} (h : isHash32Text t) :
    ∃ b, decode t = .ok b ∧ b.length = 32 := by
  obtain ⟨s, behind, rfl, hcount, hdigits, hbehind⟩ := exists_chars_of_isHash32Text h
  have hpaired : Paired (s ++ behind) := by
    refine (paired_of_digits (n := 32) hcount hdigits).append ?_
    rcases hbehind with rfl | rfl
    · exact .nil
    · exact .blank (by decide) .nil
  have hsqueezed : (squeezed (s ++ behind)).length = 64 := by
    rw [squeezed_append, List.length_append, length_squeezed_of_digits hdigits, hcount]
    rcases hbehind with rfl | rfl <;> rfl
  have hascii : (Text.ofChars ('0' :: 'x' :: (s ++ behind))).IsAscii := by
    rw [Text.isAscii_ofChars, List.forall_mem_cons, List.forall_mem_cons]
    exact ⟨by decide, by decide, hpaired.toNat_lt⟩
  have hbare : (dropMark (.ofChars ('0' :: 'x' :: (s ++ behind)))).chars = s ++ behind :=
    Text.chars_ofChars _
  obtain ⟨b, hb, hwritten⟩ := decode_of_paired hascii (hbare.symm ▸ hpaired)
  refine ⟨b, hb, ?_⟩
  rw [hbare, encode, Text.ofString_ofList, Text.ofChars_inj] at hwritten
  have hlength := length_digits b
  rw [(List.cons.inj (List.cons.inj hwritten).2).2, hsqueezed] at hlength
  omega

end Hex

/-! ## The range of keys -/

namespace Signing

open Secp256k1

/-- What is done with the key of a number ends well if the number is in range, and else with one of
the two failures for the range. -/
inductive OnlyRange (n : Nat) {α : Type} : Except Fault α → Prop
  | within {a : α} (low : 1 ≤ n) (high : n < groupOrder) : OnlyRange n (.ok a)
  | zero (low : n = 0) : OnlyRange n (.error (.keyTooSmall n))
  | beyond (high : groupOrder ≤ n) : OnlyRange n (.error (.keyTooLarge n (groupOrder - 1)))

theorem OnlyRange.map {n : Nat} {α β : Type} {x : Except Fault α} (h : OnlyRange n x)
    (f : α → β) : OnlyRange n (f <$> x) := by
  cases h with
  | within low high => exact .within low high
  | zero low => exact .zero low
  | beyond high => exact .beyond high

theorem OnlyRange.exists_ok {n : Nat} {α : Type} {x : Except Fault α} (h : OnlyRange n x)
    (hlow : 1 ≤ n) (hhigh : n < groupOrder) : ∃ a, x = .ok a := by
  cases h with
  | @within a _ _ => exact ⟨a, rfl⟩
  | zero low => omega
  | beyond high => omega

theorem onlyRange_ofBytes {b : Bytes} (h : b.length = 32) :
    OnlyRange (Bytes.toNatBE b) (PrivateKey.ofBytes b) := by
  rw [PrivateKey.ofBytes, if_neg (not_not_intro h)]
  simp only
  split
  · rename_i low
    exact .zero (Nat.lt_one_iff.mp low)
  · split
    · rename_i high
      exact .beyond high
    · rename_i low high
      exact .within (Nat.le_of_not_lt low) (Nat.lt_of_not_le high)

theorem onlyRange_readKey {key : Text} {b : Bytes} (hb : Hex.decode key = .ok b)
    (hlength : b.length = 32) : OnlyRange (Bytes.toNatBE b) (readKey (.str key)) := by
  have hread : readKey (.str key) = PrivateKey.ofBytes b := by
    rw [readKey, Hex.decodeValue, Value.text, ok_bind, hb, ok_bind]
  rw [hread]
  exact onlyRange_ofBytes hlength

/-- There is room for the signature of a message, whoever signs. -/
theorem exists_withLock_of_message {tx : Value} {digest : Bytes} (h : message tx = .ok digest)
    (signer : PrivateKey) : ∃ bs, Witnesses.withLock tx (signer.sign digest) = .ok bs := by
  obtain ⟨_, hpreimage, -⟩ := map_eq_ok.mp h
  obtain ⟨zeros, hzeros, -⟩ := bind_eq_ok.mp hpreimage
  obtain ⟨first, others, hfirst, hothers, hsize, -⟩ := Witnesses.withLock_eq_ok.mp hzeros
  refine ⟨_, Witnesses.withLock_eq_ok.mpr ⟨first, others, hfirst, hothers, ?_, rfl⟩⟩
  rwa [WitnessArgs.length_encode_withLock first
    ((signer.length_sign digest).trans List.length_replicate.symm)]

/-- A transaction fails by itself, or every key that can be read signs it. -/
theorem sign_cases (tx : Value) :
    (∃ fault, ∀ key, sign tx key = .error fault) ∨
      ∃ signed : PrivateKey → Value, ∀ key, sign tx key = signed <$> readKey key := by
  cases hfields : tx.entries with
  | error fault =>
    refine .inl ⟨fault, fun key => ?_⟩
    rw [sign, hfields, error_bind]
  | ok fields =>
    by_cases hholds : ((Dict.find? fields (.str "witnesses")).getD .null).holds
    · cases hmessage : message tx with
      | error fault =>
        refine .inl ⟨fault, fun key => ?_⟩
        simp [sign, hfields, hholds, hmessage]
      | ok digest =>
        choose bs hbs using exists_withLock_of_message hmessage
        refine .inr ⟨fun signer => .dict (Dict.set fields (.str "witnesses")
          (.list (Witnesses.texts (bs signer)))), fun key => ?_⟩
        cases hkey : readKey key with
        | error fault => simp [sign, hfields, hholds, hmessage, hkey]
        | ok signer => simp [sign, hfields, hholds, hmessage, hkey, hbs, Witnesses.texts]
    · refine .inl ⟨.noWitnesses, fun key => ?_⟩
      simp [sign, hfields, hholds]

end Signing

/-! ## Accounts -/

namespace Settings

theorem load_file {files : Files.Tree} {path : Text} {text : String}
    (h : files.find (Files.Path.ofText path) = .ok (some (.file text))) :
    load files (.str path) = (fun v => Value.orElse v (.dict [])) <$> Yaml.parse text := by
  simp only [load, h, ok_bind]
  cases Yaml.parse text <;> rfl

/-- What is taken for a key is a text that is read as 32 bytes. -/
theorem exists_bytes_of_isKey {key : Value} (h : isKey key = .ok true) :
    ∃ t b, key = .str t ∧ Hex.decode t = .ok b ∧ b.length = 32 := by
  rw [isKey] at h
  split at h
  · have hhash : Hex.isHash32Text key.display = true := Except.ok.inj h
    obtain ⟨s, behind, hdisplay, -⟩ := Hex.exists_chars_of_isHash32Text hhash
    obtain ⟨t, rfl⟩ := Value.eq_str_of_marked ⟨s ++ behind, by rw [hdisplay, Text.chars_ofChars]⟩
    obtain ⟨b, hb, hlength⟩ := Hex.exists_bytes_of_isHash32Text hhash
    exact ⟨t, b, rfl, hb, hlength⟩
  · cases h

/-- Accounts that are loaded are a dictionary, and each of them is right. -/
theorem exists_dict_of_accounts {files : Files.Tree} {override : Option Text} {path found : Value}
    (h : accounts files override path = .ok found) :
    ∃ d : Dict, found = .dict d ∧ ∀ e ∈ d, checkAccount e.1 e.2 = .ok () := by
  simp only [accounts, bind_eq_ok, pure_eq_ok, Except.ok.injEq] at h
  obtain ⟨_, -, _, -, d, hd, ⟨⟩, hchecked, rfl⟩ := h
  exact ⟨d, Value.eq_dict_of_entries hd, forM_eq_ok_iff.mp hchecked⟩

theorem isKey_of_checkAccount {name : Scalar} {account key : Value}
    (h : checkAccount name account = .ok ()) (hkey : account.field "private_key" = .ok key)
    (hholds : key.holds) : isKey key = .ok true := by
  obtain ⟨known, -, h⟩ := bind_eq_ok.mp h
  cases known with
  | false => cases h
  | true =>
    simp only [Bool.not_true, Bool.false_eq_true, if_false, hkey, ok_bind, hholds, if_true] at h
    obtain ⟨right, hright, h⟩ := bind_eq_ok.mp h
    cases right with
    | false => cases h
    | true => exact hright

/-- Who signs is in the dictionary and has a key. -/
theorem exists_mem_of_account {d : Dict} {name account : Value}
    (h : Settings.account (.dict d) name true = .ok account) :
    ∃ e ∈ d, account = e.2 ∧ ∃ key, account.field "private_key" = .ok key ∧ key.holds := by
  obtain ⟨known, -, h⟩ := bind_eq_ok.mp h
  cases known with
  | false => cases h
  | true =>
    obtain ⟨found, hfound, h⟩ := bind_eq_ok.mp h
    obtain ⟨key, hkey, h⟩ := bind_eq_ok.mp h
    by_cases hholds : key.holds
    · simp only [hholds, Bool.not_true, Bool.false_eq_true, if_false] at h
      obtain rfl : found = account := Except.ok.inj h
      obtain ⟨e, he, rfl⟩ := Value.exists_mem_of_select hfound
      exact ⟨e, he, rfl, key, hkey, hholds⟩
    · simp [hholds] at h

/-- **A key that was let through when accounts were loaded can be used.** -/
theorem signer_usable {files : Files.Tree} {override : Option Text}
    {path found name account : Value} (hfound : accounts files override path = .ok found)
    (haccount : Settings.account found name true = .ok account) :
    ∃ key b, account.item "private_key" = .ok (.str key) ∧ Hex.decode key = .ok b ∧
      b.length = 32 ∧ Signing.OnlyRange (Bytes.toNatBE b) (Signing.lockArgs (.str key)) ∧
      ∀ tx, (∃ fault, ∀ other, Signing.sign tx other = .error fault) ∨
        Signing.OnlyRange (Bytes.toNatBE b) (Signing.sign tx (.str key)) := by
  obtain ⟨d, rfl, hchecked⟩ := exists_dict_of_accounts hfound
  obtain ⟨e, he, rfl, key, hfield, hholds⟩ := exists_mem_of_account haccount
  have hkey := isKey_of_checkAccount (hchecked e he) hfield hholds
  obtain ⟨t, b, rfl, hb, hlength⟩ := exists_bytes_of_isKey hkey
  have hrange := Signing.onlyRange_readKey hb hlength
  refine ⟨t, b, Value.item_of_field hfield (by nofun), hb, hlength, ?_, fun tx => ?_⟩
  · exact hrange.map _
  · refine (Signing.sign_cases tx).imp_right fun ⟨signed, hsigned⟩ => ?_
    rw [hsigned]
    exact hrange.map signed

/-- The key 1 with a line feed behind it, which quotes let through. -/
theorem signer_usable_line :
    let key : Text := .ofString
      ("0x0000000000000000000000000000000000000000000000000000000000000001" ++ "\n")
    ∃ files found account args, accounts files none (.str "accounts.yaml") = .ok found ∧
      Settings.account found (.str "alice") true = .ok account ∧
      account.item "private_key" = .ok (.str key) ∧ Signing.lockArgs (.str key) = .ok args := by
  intro key
  let text := "accounts:\n  alice:\n    address: ckt1\n    private_key: \"0x000000000000000000000"
    ++ "0000000000000000000000000000000000000000001\\n\"\n"
  let files : Files.Tree := ⟨[(["accounts.yaml"], text)], []⟩
  have hnames : (Files.Path.ofText "accounts.yaml").systemNames = .ok ["accounts.yaml"] := by
    have hparts : (Files.Path.ofText "accounts.yaml").parts = ["accounts.yaml"] := by
      decide +kernel
    have hname : Text.string? "accounts.yaml" = some "accounts.yaml" := by decide +kernel
    simp [Files.Path.systemNames, Files.Path.systemName, hparts, hname]
  have hfind : files.find (Files.Path.ofText "accounts.yaml") = .ok (some (.file text)) := by
    rw [Files.Tree.find, hnames]
    rfl
  have hread : (do
      let found ← accounts files none (.str "accounts.yaml")
      let account ← Settings.account found (.str "alice") true
      (← account.item "private_key").text).toOption = some key := by
    rw [accounts, load_file hfind]
    decide +kernel
  obtain ⟨found, hfound, hread⟩ := bind_eq_ok.mp (eq_ok_of_toOption hread)
  obtain ⟨account, haccount, hread⟩ := bind_eq_ok.mp hread
  obtain ⟨v, hv, htext⟩ := bind_eq_ok.mp hread
  obtain rfl := Value.eq_str_of_text htext
  obtain ⟨key', b, hkey', hb, -, hrange, -⟩ := signer_usable hfound haccount
  obtain rfl := Scalar.str.inj (Value.scalar.inj (Except.ok.inj (hv.symm.trans hkey')))
  have hone : Hex.decode key = .ok (Bytes.ofNatBE 32 1) := eq_ok_of_toOption (by decide +kernel)
  obtain rfl := Except.ok.inj (hb.symm.trans hone)
  obtain ⟨args, hargs⟩ := hrange.exists_ok (by decide +kernel) (by decide +kernel)
  exact ⟨files, found, account, args, hfound, haccount, hv, hargs⟩

end Settings
end CellNft
