/-
CellNft.Proofs.Hex — bytes and whole numbers survive being written in hex.

* `decode_encode`: what `Hex.encode` writes, `Hex.decode` reads back, for bytes of any length.
* `decode_behind`: what stands behind the digits of a byte is read as if it stood alone.
* `lower_encode`: the text is in lower case already, so a comparison that lowers it changes nothing.
* `isHash32Text_iff`: what is taken for a hash is `0x` with 64 digits, or that with a line feed.
* `readInt_hexText`: numbers are read back, also negative ones.
* `hexPadded_lt`: numbers that are padded to one length are ordered like their texts.

All hold digit by digit. `hexDigit?_digitChar` and its companions are the facts about one digit;
the reader's place and the characters passed so far are generalised in the inductions.
-/
import CellNft.Hex
import CellNft.Proofs.Access
import CellNft.Proofs.Ascii
import Mathlib.Tactic.IntervalCases

namespace CellNft

namespace Hex

/-! ## One digit -/

theorem hexDigit?_digitChar {n : Nat} (h : n < 16) :
    Integer.hexDigit? (Nat.digitChar n) = some n := by
  interval_cases n <;> decide

theorem isAsciiBlank_digitChar {n : Nat} (h : n < 16) :
    Text.isAsciiBlank (Nat.digitChar n) = false := by
  interval_cases n <;> decide

theorem toNat_digitChar_lt {n : Nat} (h : n < 16) : (Nat.digitChar n).toNat < 0x80 := by
  interval_cases n <;> decide

theorem toLower_digitChar {n : Nat} (h : n < 16) : (Nat.digitChar n).toLower = Nat.digitChar n := by
  interval_cases n <;> decide

/-- There are digits of either case, and no others. -/
theorem isSome_hexDigit?_iff {c : Char} :
    (Integer.hexDigit? c).isSome = true ↔ c ∈ "0123456789abcdefABCDEF".toList := by
  by_cases hc : c.toNat < 0x80
  · exact Text.forall_ascii (P := fun c => (Integer.hexDigit? c).isSome = true ↔
      c ∈ "0123456789abcdefABCDEF".toList) (by decide +kernel) hc
  · -- Digits of other scripts and wide letters are none.
    have hnone : ∀ d : Char, d.toNat < 0x80 → ¬c ≤ d := fun d hd hle =>
      hc (Nat.lt_of_le_of_lt (UInt32.le_iff_toNat_le.mp hle) hd)
    have hdigits : "0123456789abcdefABCDEF".toList.all (·.toNat < 0x80) = true := by decide
    have hdigit : Integer.hexDigit? c = none := by
      rw [Integer.hexDigit?, if_neg fun h => hnone _ (by decide) h.2,
        if_neg fun h => hnone _ (by decide) h.2, if_neg fun h => hnone _ (by decide) h.2]
    simp only [hdigit, Option.isSome_none, Bool.false_eq_true, false_iff]
    exact fun hmem => hc (of_decide_eq_true (List.all_eq_true.mp hdigits c hmem))

/-- Every character of a text of digits is one of the sixteen. -/
theorem exists_digit_of_mem_digits {bytes : Bytes} {c : Char} (h : c ∈ digits bytes) :
    ∃ n < 16, c = Nat.digitChar n := by
  obtain ⟨b, -, hc⟩ := List.mem_flatMap.mp h
  have hb : b.toNat < 256 := b.toNat_lt
  simp only [bytePair, List.mem_cons, List.not_mem_nil, or_false] at hc
  rcases hc with rfl | rfl
  · exact ⟨b.toNat / 16, by omega, rfl⟩
  · exact ⟨b.toNat % 16, by omega, rfl⟩

theorem length_digits (bytes : Bytes) : (digits bytes).length = 2 * bytes.length := by
  simp [digits, List.length_flatMap, bytePair, Nat.mul_comm]

/-! ## Reading back -/

/-- The reader takes the two digits of a byte and goes on behind them. -/
theorem pairsFrom_bytePair (place : Nat) (b : UInt8) (rest : List Char) :
    pairsFrom place (bytePair b ++ rest) = (pairsFrom (place + 2) rest).map (b :: ·) := by
  have hb : b.toNat < 256 := b.toNat_lt
  have high := hexDigit?_digitChar (n := b.toNat / 16) (by omega)
  have low := hexDigit?_digitChar (n := b.toNat % 16) (by omega)
  have noBlank := isAsciiBlank_digitChar (n := b.toNat / 16) (by omega)
  have hbyte : UInt8.ofNat (16 * (b.toNat / 16) + b.toNat % 16) = b := by
    rw [Nat.div_add_mod, UInt8.ofNat_toNat]
  simp [bytePair, pairsFrom, noBlank, high, low, hbyte]

theorem pairsFrom_digits (bytes : Bytes) : ∀ place, pairsFrom place (digits bytes) = .ok bytes := by
  induction bytes with
  | nil => intro place; rfl
  | cons b rest ih =>
    intro place
    have hcons : digits (b :: rest) = bytePair b ++ digits rest := by simp [digits]
    rw [hcons, pairsFrom_bytePair, ih]
    rfl

theorem readPairs_digits (bytes : Bytes) : readPairs (digits bytes) = .ok bytes := by
  have noWide : (digits bytes).findIdx? (fun c => decide (0x80 ≤ c.toNat)) = none := by
    rw [List.findIdx?_eq_none_iff]
    intro c hc
    obtain ⟨n, hn, rfl⟩ := exists_digit_of_mem_digits hc
    have := toNat_digitChar_lt hn
    simpa using this
  rw [readPairs, noWide]
  exact pairsFrom_digits bytes 0

/-- The mark in front of written bytes is taken off. -/
theorem dropMark_encode (bytes : Bytes) :
    dropMark (encode bytes) = Text.ofChars (digits bytes) := by
  rw [encode, Text.ofString_ofList]
  rfl

/-- **Bytes written in hex are read back.** -/
theorem decode_encode (bytes : Bytes) : decode (encode bytes) = .ok bytes := by
  rw [decode, dropMark_encode, Text.chars_ofChars, readPairs_digits]

theorem decodeValue_encode (bytes : Bytes) : decodeValue (.str (encode bytes)) = .ok bytes :=
  decode_encode bytes

/-! ## Reading from a place on -/

/-- Only the places in failures depend on where reading starts. -/
theorem pairsFrom_eq_ok {s : List Char} {place : Nat} {b : Bytes} (h : pairsFrom place s = .ok b)
    (place' : Nat) : pairsFrom place' s = .ok b := by
  fun_induction pairsFrom place s generalizing place' b with
  | case1 => exact h
  | case2 place c hblank => simpa [pairsFrom, hblank] using h
  | case3 => cases h
  | case4 => cases h
  | case5 place c d rest hblank ih =>
    rw [pairsFrom, if_pos hblank]
    exact ih h _
  | case6 => cases h
  | case7 => cases h
  | case8 place c d rest hblank high low hlow hhigh ih =>
    cases hrest : pairsFrom (place + 2) rest with
    | error e =>
      rw [hrest] at h
      cases h
    | ok bytes =>
      rw [hrest] at h
      rw [pairsFrom, if_neg hblank, hhigh, hlow]
      simp only [ih hrest (place' + 2)]
      exact h

theorem findIdx?_of_append {α : Type} {p : α → Bool} {xs ys : List α}
    (h : (xs ++ ys).findIdx? p = none) : ys.findIdx? p = none := by
  rw [List.findIdx?_eq_none_iff] at h ⊢
  exact fun y hy => h y (List.mem_append_right xs hy)

/-- What stands behind a byte can be read alone. -/
theorem decode_behind {v : UInt8} {t : Text} {b : Bytes}
    (h : decode ("0x" ++ Text.ofChars (digits [v]) ++ dropMark t) = .ok b) :
    ∃ rest, decode t = .ok rest ∧ b = v :: rest := by
  have hchars : (dropMark ("0x" ++ Text.ofChars (digits [v]) ++ dropMark t)).chars
      = bytePair v ++ (dropMark t).chars := by
    have hmark : dropMark ("0x" ++ Text.ofChars (digits [v]) ++ dropMark t)
        = Text.ofChars (bytePair v) ++ dropMark t := rfl
    rw [hmark, Text.chars_append, Text.chars_ofChars]
  rw [decode, hchars, readPairs] at h
  split at h
  · rename_i bytes hbytes
    obtain rfl := Except.ok.inj h
    split at hbytes
    · cases hbytes
    · rename_i hascii
      rw [pairsFrom_bytePair] at hbytes
      cases hrest : pairsFrom (0 + 2) (dropMark t).chars with
      | error e =>
        rw [hrest] at hbytes
        cases hbytes
      | ok rest =>
        rw [hrest] at hbytes
        refine ⟨rest, ?_, (Except.ok.inj hbytes).symm⟩
        rw [decode, readPairs, findIdx?_of_append hascii]
        simp only [pairsFrom_eq_ok hrest 0]
  · cases h

/-! ## What can be read -/

open Outcome in
theorem exists_str_of_decodeValue {v : Value} {b : Bytes} (h : decodeValue v = .ok b) :
    ∃ t, v = .str t := by
  obtain ⟨t, ht, -⟩ := bind_eq_ok.mp h
  exact ⟨t, Value.eq_str_of_text ht⟩

/-- Only texts and bytes are read. -/
theorem str_or_bytes_of_readInt {v : Value} {n : Int} (h : readInt v = .ok n) :
    (∃ t, v = .str t) ∨ ∃ b, v = .bytes b := by
  unfold readInt at h
  split at h
  · exact .inl ⟨_, rfl⟩
  · exact .inr ⟨_, rfl⟩
  · cases h

theorem exists_scalar_of_readInt {v : Value} {n : Int} (h : readInt v = .ok n) :
    ∃ s, v = .scalar s :=
  (str_or_bytes_of_readInt h).elim (fun ⟨_, ht⟩ => ⟨_, ht⟩) fun ⟨_, hb⟩ => ⟨_, hb⟩

/-! ## Lower case -/

/-- Bytes are written in lower case. -/
theorem lower_encode (bytes : Bytes) : Text.lower (encode bytes) = (encode bytes : Text) := by
  have hlower : ∀ c ∈ '0' :: 'x' :: digits bytes, c.toNat < 0x80 ∧ c.toLower = c := by
    intro c hc
    simp only [List.mem_cons] at hc
    rcases hc with rfl | rfl | hc
    · decide
    · decide
    · obtain ⟨n, hn, rfl⟩ := exists_digit_of_mem_digits hc
      exact ⟨toNat_digitChar_lt hn, toLower_digitChar hn⟩
  have hsame := (List.map_congr_left fun c hc => (hlower c hc).2).trans (List.map_id _)
  rw [encode, Text.ofString_ofList, Text.lower, Text.ofChars,
    Text.lowerFrom_ofChars _ _ fun c hc => (hlower c hc).1, hsame]

/-! ## The text of a hash -/

/-- `0x` and so many digits, each of either case. -/
def Spelled (count : Nat) (t : Text) : Prop :=
  ∃ s : List Char, t = .ofChars ('0' :: 'x' :: s) ∧ s.length = count ∧
    ∀ c ∈ s, c ∈ "0123456789abcdefABCDEF".toList

theorem Spelled.length_chars {count : Nat} {t : Text} (h : Spelled count t) :
    t.chars.length = count + 2 := by
  obtain ⟨s, rfl, hcount, -⟩ := h
  rw [Text.chars_ofChars, List.length_cons, List.length_cons, hcount]

/-- A line feed is one character too many. -/
theorem Spelled.ne_line {count : Nat} {t u : Text} (ht : Spelled count t) (hu : Spelled count u) :
    t ≠ u ++ "\n" := by
  rintro rfl
  have hlength := ht.length_chars
  rw [Text.chars_append, List.length_append, hu.length_chars] at hlength
  exact absurd (Nat.add_eq_left.mp hlength) (by decide)

theorem isHash32Text_iff_chars {t : Text} : isHash32Text t = true ↔
    ∃ s behind : List Char, t.chars = '0' :: 'x' :: (s ++ behind) ∧ s.length = 64 ∧
      (∀ c ∈ s, c ∈ "0123456789abcdefABCDEF".toList) ∧ (behind = [] ∨ behind = ['\n']) := by
  constructor
  · intro h
    rw [isHash32Text] at h
    split at h
    · rename_i rest hchars
      simp only [Bool.and_eq_true, Bool.or_eq_true, decide_eq_true_eq, List.all_eq_true,
        isSome_hexDigit?_iff] at h
      obtain ⟨⟨hcount, hdigits⟩, hbehind⟩ := h
      exact ⟨rest.take 64, rest.drop 64, by rw [hchars, List.take_append_drop], hcount, hdigits,
        hbehind⟩
    · cases h
  · rintro ⟨s, behind, hchars, hcount, hdigits, hbehind⟩
    rw [isHash32Text, hchars]
    simp only [List.take_left' hcount, List.drop_left' hcount, Bool.and_eq_true, Bool.or_eq_true,
      decide_eq_true_eq, List.all_eq_true, isSome_hexDigit?_iff]
    exact ⟨⟨hcount, hdigits⟩, hbehind⟩

/-- Such a text is in ASCII, so it is its characters. -/
theorem exists_chars_of_isHash32Text {t : Text} (h : isHash32Text t = true) :
    ∃ s behind : List Char, t = .ofChars ('0' :: 'x' :: (s ++ behind)) ∧ s.length = 64 ∧
      (∀ c ∈ s, c ∈ "0123456789abcdefABCDEF".toList) ∧ (behind = [] ∨ behind = ['\n']) := by
  obtain ⟨s, behind, hchars, hcount, hdigits, hbehind⟩ := isHash32Text_iff_chars.mp h
  have hplain : '\ufffd' ∉ '0' :: 'x' :: (s ++ behind) := by
    have hs : '\ufffd' ∉ s := fun hwide => absurd (hdigits _ hwide) (by decide)
    rcases hbehind with rfl | rfl <;> simp [hs]
  exact ⟨s, behind, Text.eq_ofChars_of_chars hchars hplain, hcount, hdigits, hbehind⟩

/-- The texts that are taken for the hash of a transaction. -/
theorem isHash32Text_iff {t : Text} :
    isHash32Text t = true ↔ ∃ u, Spelled 64 u ∧ (t = u ∨ t = u ++ "\n") := by
  constructor
  · intro h
    obtain ⟨s, behind, rfl, hcount, hdigits, hbehind⟩ := exists_chars_of_isHash32Text h
    refine ⟨.ofChars ('0' :: 'x' :: s), ⟨s, rfl, hcount, hdigits⟩, ?_⟩
    rcases hbehind with rfl | rfl
    · exact .inl (by rw [List.append_nil])
    · exact .inr (congrArg Text.mk (by simp [Text.ofChars, Text.ofString]))
  · rw [isHash32Text_iff_chars]
    rintro ⟨_, ⟨s, rfl, hcount, hdigits⟩, rfl | rfl⟩
    · exact ⟨s, [], by rw [Text.chars_ofChars, List.append_nil], hcount, hdigits, .inl rfl⟩
    · refine ⟨s, ['\n'], ?_, hcount, hdigits, .inr rfl⟩
      rw [Text.chars_append, Text.chars_ofChars]
      rfl

end Hex

/-! ## Whole numbers -/

namespace Integer

theorem digit?_digitChar {n : Nat} (h : n < 16) : digit? 16 (Nat.digitChar n) = some n := by
  interval_cases n <;> decide

theorem digitChar_ne_underscore {n : Nat} (h : n < 16) : Nat.digitChar n ≠ '_' := by
  interval_cases n <;> decide

theorem isBlank_digitChar {n : Nat} (h : n < 16) : Text.isBlank (Nat.digitChar n) = false := by
  interval_cases n <;> decide

/-- Digits are read from the left, each weighing sixteen times as much as the next. -/
theorem readOn_digits : ∀ (ds : List Nat) (value : Nat), (∀ d ∈ ds, d < 16) →
    readOn 16 value (ds.map Nat.digitChar) = some (ds.foldl (fun n d => n * 16 + d) value)
  | [], _, _ => rfl
  | d :: rest, value, h => by
      have hd := h d List.mem_cons_self
      rw [List.map_cons, readOn, digit?_digitChar hd]
      · exact readOn_digits rest _ fun d' hd' => h d' (List.mem_cons_of_mem d hd')
      · intro _ _ hc
        exact absurd hc (digitChar_ne_underscore hd)

/-- The digits of a number, as numbers. -/
theorem exists_digits (n : Nat) : ∃ d ds, (∀ e ∈ d :: ds, e < 16) ∧
    hexDigits n = (d :: ds).map Nat.digitChar ∧
      (d :: ds).foldl (fun n d => n * 16 + d) 0 = n := by
  induction n using Nat.strongRecOn with
  | ind n ih =>
    rw [hexDigits, Nat.toDigits_eq_if (by decide)]
    split
    · rename_i hn
      exact ⟨n, [], by simpa using hn, rfl, by simp⟩
    · rename_i hn
      obtain ⟨d, ds, hlt, hdigits, hvalue⟩ := ih (n / 16) (by omega)
      refine ⟨d, ds ++ [n % 16], ?_, ?_, ?_⟩
      · rw [← List.cons_append, List.forall_mem_append]
        exact ⟨hlt, by simpa using Nat.mod_lt n (by decide)⟩
      · rw [hexDigits] at hdigits
        rw [hdigits, ← List.cons_append, List.map_append]
        rfl
      · rw [← List.cons_append, List.foldl_append, hvalue]
        simp only [List.foldl_cons, List.foldl_nil]
        omega

theorem readDigits_hexDigits (n : Nat) : readDigits 16 (hexDigits n) = some n := by
  obtain ⟨d, ds, hlt, hdigits, hvalue⟩ := exists_digits n
  obtain ⟨hd, hds⟩ := List.forall_mem_cons.mp hlt
  rw [hdigits, List.map_cons, readDigits, digit?_digitChar hd]
  simp only
  rw [readOn_digits ds d hds, ← hvalue]
  simp

/-- Zeros in front do not change a number. -/
theorem readDigits_hexPadded (width n : Nat) : readDigits 16 (Text.hexPadded width n) = some n := by
  obtain ⟨d, ds, hlt, hdigits, hvalue⟩ := exists_digits n
  rw [hexDigits] at hdigits
  have hzeros : ∀ k, (List.replicate k 0 ++ d :: ds).foldl (fun n d => n * 16 + d) 0 = n := by
    intro k
    induction k with
    | zero => exact hvalue
    | succ k ih => exact ih
  rw [Text.hexPadded, hdigits]
  generalize width - ((d :: ds).map Nat.digitChar).length = k
  cases k with
  | zero =>
    rw [List.replicate_zero, List.nil_append, ← hdigits]
    exact readDigits_hexDigits n
  | succ k =>
    have hmap : List.replicate k '0' ++ (d :: ds).map Nat.digitChar
        = (List.replicate k 0 ++ d :: ds).map Nat.digitChar := by
      rw [List.map_append, List.map_replicate]
      rfl
    have hzero : digit? 16 '0' = some 0 := by decide
    rw [List.replicate_succ, List.cons_append, hmap, readDigits, hzero]
    simp only
    rw [readOn_digits, hzeros k]
    intro e he
    rcases List.mem_append.mp he with he | he
    · rw [List.eq_of_mem_replicate he]
      decide
    · exact hlt e he

theorem trim_eq_self {isSpace : Char → Bool} {s : List Char} (h : ∀ c ∈ s, isSpace c = false) :
    Text.trim isSpace s = s := by
  have hdrop : ∀ t : List Char, (∀ c ∈ t, isSpace c = false) → t.dropWhile isSpace = t := by
    intro t ht
    cases t with
    | nil => rfl
    | cons c rest => simp [ht c List.mem_cons_self]
  rw [Text.trim, hdrop s h, hdrop s.reverse (fun c hc => h c (List.mem_reverse.mp hc)),
    List.reverse_reverse]

/-- Digits behind the mark of the base are read as they are without it. -/
theorem readUnsigned_marked {s : List Char} {n : Nat}
    (hdigits : ∀ c ∈ s, ∃ d < 16, c = Nat.digitChar d) (hread : readDigits 16 s = some n) :
    readUnsigned 16 ('0' :: 'x' :: s) = some n := by
  have hmark : Text.decimalDigit? '0' = some 0 ∧ marksBase 16 'x' := by decide
  rw [readUnsigned, if_pos hmark, hread]
  rintro rest rfl
  obtain ⟨d, hd, hc⟩ := hdigits '_' List.mem_cons_self
  exact digitChar_ne_underscore hd hc.symm

theorem isBlank_marked {s : List Char} (hdigits : ∀ c ∈ s, ∃ d < 16, c = Nat.digitChar d) :
    ∀ c ∈ '0' :: 'x' :: s, Text.isBlank c = false := by
  rw [List.forall_mem_cons, List.forall_mem_cons]
  refine ⟨by decide, by decide, fun c hc => ?_⟩
  obtain ⟨d, hd, rfl⟩ := hdigits c hc
  exact isBlank_digitChar hd

theorem read?_marked {s : List Char} {n : Nat} (hdigits : ∀ c ∈ s, ∃ d < 16, c = Nat.digitChar d)
    (hread : readDigits 16 s = some n) : read? 16 ('0' :: 'x' :: s) = some (n : Int) := by
  rw [read?, trim_eq_self (isBlank_marked hdigits), readSigned, readUnsigned_marked hdigits hread]
  · rfl
  · nofun
  · nofun

theorem read?_negative {s : List Char} {n : Nat} (hdigits : ∀ c ∈ s, ∃ d < 16, c = Nat.digitChar d)
    (hread : readDigits 16 s = some n) : read? 16 ('-' :: '0' :: 'x' :: s) = some (-(n : Int)) := by
  have hblank : ∀ c ∈ '-' :: '0' :: 'x' :: s, Text.isBlank c = false :=
    List.forall_mem_cons.mpr ⟨by decide, isBlank_marked hdigits⟩
  rw [read?, trim_eq_self hblank, readSigned, readUnsigned_marked hdigits hread]
  rfl

theorem exists_digit_of_mem_hexDigits {n : Nat} {c : Char} (h : c ∈ hexDigits n) :
    ∃ d < 16, c = Nat.digitChar d := by
  obtain ⟨d, ds, hlt, hdigits, -⟩ := exists_digits n
  rw [hdigits] at h
  obtain ⟨e, he, rfl⟩ := List.mem_map.mp h
  exact ⟨e, hlt e he, rfl⟩

/-- **A number written in hex is read back.** -/
theorem read?_hexText (n : Int) : read? 16 (hexText n) = some n := by
  have hdigits : ∀ c ∈ hexDigits n.natAbs, ∃ d < 16, c = Nat.digitChar d :=
    fun c => exists_digit_of_mem_hexDigits
  rw [hexText]
  split
  · rename_i hneg
    rw [read?_negative hdigits (readDigits_hexDigits _), Int.ofNat_natAbs_of_nonpos hneg.le,
      Int.neg_neg]
  · rename_i hpos
    rw [read?_marked hdigits (readDigits_hexDigits _), Int.natAbs_of_nonneg (Int.not_lt.mp hpos)]

end Integer

/-! ## Padded numbers -/

namespace Text

theorem hexPadded_one {n : Nat} (h : n < 16) : hexPadded 1 n = [Nat.digitChar n] := by
  rw [hexPadded, Nat.toDigits_eq_if (by decide), if_pos h]
  rfl

theorem hexPadded_succ (width n : Nat) : hexPadded (width + 2) n
    = hexPadded (width + 1) (n / 16) ++ [Nat.digitChar (n % 16)] := by
  rw [hexPadded, Nat.toDigits_eq_if (by decide)]
  split
  · rename_i hn
    have hzero : Nat.toDigits 16 0 = ['0'] := by decide
    have hzeros : List.replicate (width + 1) '0' = List.replicate width '0' ++ ['0'] :=
      List.replicate_succ'
    rw [Nat.div_eq_of_lt hn, Nat.mod_eq_of_lt hn, hexPadded, hzero]
    simp [hzeros]
  · rw [hexPadded]
    simp

/-- A number that fits takes the given room. -/
theorem length_hexPadded {width n : Nat} (h : n < 16 ^ (width + 1)) :
    (hexPadded (width + 1) n).length = width + 1 := by
  induction width generalizing n with
  | zero => rw [hexPadded_one (by simpa using h), List.length_singleton]
  | succ width ih =>
    rw [Nat.pow_succ] at h
    rw [hexPadded_succ, List.length_append, ih (Nat.div_lt_of_lt_mul (by omega)),
      List.length_singleton]

theorem exists_digit_of_mem_hexPadded {width n : Nat} {c : Char} (h : c ∈ hexPadded width n) :
    ∃ d < 16, c = Nat.digitChar d := by
  rcases List.mem_append.mp h with h | h
  · exact ⟨0, by decide, List.eq_of_mem_replicate h⟩
  · exact Integer.exists_digit_of_mem_hexDigits h

/-- Of texts with one length, what stands behind them does not matter where they differ. -/
theorem lt_append_of_lt : ∀ {s t : List Nat}, s.length = t.length → s < t →
    ∀ u v : List Nat, s ++ u < t ++ v
  | [], [], _, h, _, _ => absurd h (List.lt_irrefl [])
  | x :: s, y :: t, hlength, h, u, v => by
      rw [List.cons_append, List.cons_append, List.cons_lt_cons_iff]
      rcases List.cons_lt_cons_iff.mp h with hfirst | ⟨hfirst, hrest⟩
      · exact .inl hfirst
      · exact .inr ⟨hfirst, lt_append_of_lt (Nat.succ.inj hlength) hrest u v⟩

/-- **Padded numbers are ordered like their texts.** -/
theorem hexPadded_lt {width m n : Nat} (hmn : m < n) (hn : n < 16 ^ (width + 1)) :
    (hexPadded (width + 1) m).map Char.toNat < (hexPadded (width + 1) n).map Char.toNat := by
  have hdigit : ∀ {d e : Nat}, d < e → e < 16 →
      (Nat.digitChar d).toNat < (Nat.digitChar e).toNat := by
    intro d e hde he
    interval_cases e <;> interval_cases d <;> decide
  induction width generalizing m n with
  | zero =>
    rw [hexPadded_one (by omega), hexPadded_one (by simpa using hn)]
    exact List.cons_lt_cons_iff.mpr (.inl (hdigit hmn (by simpa using hn)))
  | succ width ih =>
    rw [Nat.pow_succ] at hn
    have hn' : n / 16 < 16 ^ (width + 1) := Nat.div_lt_of_lt_mul (by omega)
    rw [hexPadded_succ, hexPadded_succ, List.map_append, List.map_append]
    -- The numbers differ in front of their last digits, or only in these.
    rcases Nat.lt_or_ge (m / 16) (n / 16) with hfront | hfront
    · refine lt_append_of_lt ?_ (ih hfront hn') _ _
      rw [List.length_map, List.length_map, length_hexPadded (by omega), length_hexPadded hn']
    · have hsame : m / 16 = n / 16 := by omega
      rw [hsame]
      refine List.append_left_lt (List.cons_lt_cons_iff.mpr (.inl (hdigit ?_ ?_)))
      · omega
      · omega

end Text

theorem Hex.u32Text_injective {m n : Nat} (h : u32Text m = u32Text n) : m = n := by
  have hdigits : Text.hexPadded 8 m = Text.hexPadded 8 n :=
    List.cons.inj (List.cons.inj h).2 |>.2
  have hread := congrArg (Integer.readDigits 16) hdigits
  rw [Integer.readDigits_hexPadded, Integer.readDigits_hexPadded] at hread
  exact Option.some.inj hread

/-- **A number of eight digits is read back.** -/
theorem Hex.readInt_u32Text (n : Nat) : Hex.readInt (.str (.ofChars (u32Text n))) = .ok n := by
  have hread := Integer.read?_marked (fun _ => Text.exists_digit_of_mem_hexPadded)
    (Integer.readDigits_hexPadded 8 n)
  rw [Hex.readInt, Hex.readIntText, Numeral.integer, Numeral.read, Text.chars_ofChars]
  simp [u32Text, hread]

theorem Hex.readInt_hexText (n : Int) :
    Hex.readInt (.str (String.ofList (Integer.hexText n))) = .ok n := by
  rw [Hex.readInt, Hex.readIntText, Numeral.integer, Numeral.read, Text.ofString_ofList,
    Text.chars_ofChars]
  simp [Integer.read?_hexText n]

end CellNft
