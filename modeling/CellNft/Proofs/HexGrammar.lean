/-
CellNft.Proofs.HexGrammar — which texts are hex, and where the others stop being hex.

* `Paired` is the grammar: digits of either case in pairs, with blanks before, between and behind
  the pairs. A blank inside a pair is as wrong as any other character there.
* `Misfit` says where a text leaves the grammar: behind pairs and blanks there is something else
  than a digit, or a digit is alone.

`decode_grammar`: bytes that are written are read back. An ASCII text that is read is `Paired`
behind its mark, and written again it has no blanks and is in lower case. Every other ASCII text is
refused at its misfit.

The reader counts places from where it starts, so it is followed through a `Paired` text with
whatever stands behind that (`Paired.pairsFrom_append`). Both halves of the theorem are this lemma:
with nothing behind it is acceptance, and with a misfit behind it is the place of the refusal.
-/
import CellNft.Proofs.Hex

namespace CellNft.Hex

/-! ## The grammar -/

/-- A digit of either case. -/
abbrev IsDigit (c : Char) : Prop := c ∈ "0123456789abcdefABCDEF".toList

/-- Space, tab, line feed, vertical tab, form feed and carriage return. -/
abbrev IsBlank (c : Char) : Prop := c ∈ " \t\n\x0b\x0c\r".toList

/-- Digits in pairs, with blanks around the pairs. -/
inductive Paired : List Char → Prop
  | nil : Paired []
  | blank {c : Char} {rest : List Char} (hc : IsBlank c) (hrest : Paired rest) : Paired (c :: rest)
  | pair {c d : Char} {rest : List Char} (hc : IsDigit c) (hd : IsDigit d) (hrest : Paired rest) :
      Paired (c :: d :: rest)

/-- The first place of a text at which a digit is needed and there is none. It may be the end. -/
inductive Misfit : List Char → Nat → Prop
  | first {pre rest : List Char} {c : Char} (hpre : Paired pre) (hdigit : ¬IsDigit c)
      (hblank : ¬IsBlank c) : Misfit (pre ++ c :: rest) pre.length
  | second {pre rest : List Char} {c d : Char} (hpre : Paired pre) (hc : IsDigit c)
      (hd : ¬IsDigit d) : Misfit (pre ++ c :: d :: rest) (pre.length + 1)
  | atEnd {pre : List Char} {c : Char} (hpre : Paired pre) (hc : IsDigit c) :
      Misfit (pre ++ [c]) (pre ++ [c]).length

/-- The text without blanks, in lower case. -/
def squeezed (s : List Char) : List Char := (s.filter (¬IsBlank ·)).map Char.toLower

theorem Misfit.blank {c : Char} {s : List Char} {place : Nat} (hc : IsBlank c)
    (h : Misfit s place) : Misfit (c :: s) (place + 1) := by
  cases h with
  | first hpre hdigit hblank => exact .first (.blank hc hpre) hdigit hblank
  | second hpre hfirst hsecond => exact .second (.blank hc hpre) hfirst hsecond
  | atEnd hpre hfirst => exact .atEnd (.blank hc hpre) hfirst

theorem Misfit.pair {c d : Char} {s : List Char} {place : Nat} (hc : IsDigit c) (hd : IsDigit d)
    (h : Misfit s place) : Misfit (c :: d :: s) (place + 2) := by
  cases h with
  | first hpre hdigit hblank => exact .first (.pair hc hd hpre) hdigit hblank
  | second hpre hfirst hsecond => exact .second (.pair hc hd hpre) hfirst hsecond
  | atEnd hpre hfirst => exact .atEnd (.pair hc hd hpre) hfirst

/-- A text is hex, or there is a place where it stops being hex. -/
theorem paired_or_misfit : ∀ s : List Char, Paired s ∨ ∃ place, Misfit s place
  | [] => .inl .nil
  | [c] => by
      by_cases hblank : IsBlank c
      · exact .inl (.blank hblank .nil)
      by_cases hdigit : IsDigit c
      · exact .inr ⟨_, .atEnd .nil hdigit⟩
      · exact .inr ⟨_, .first .nil hdigit hblank⟩
  | c :: d :: rest => by
      by_cases hblank : IsBlank c
      · exact (paired_or_misfit (d :: rest)).imp (.blank hblank)
          fun ⟨place, h⟩ => ⟨place + 1, h.blank hblank⟩
      by_cases hc : IsDigit c
      · by_cases hd : IsDigit d
        · exact (paired_or_misfit rest).imp (.pair hc hd)
            fun ⟨place, h⟩ => ⟨place + 2, h.pair hc hd⟩
        · exact .inr ⟨_, .second .nil hc hd⟩
      · exact .inr ⟨_, .first .nil hc hblank⟩

/-! ## The reader -/

theorem IsDigit.toNat_lt {c : Char} (h : IsDigit c) : c.toNat < 0x80 := by
  have hall : "0123456789abcdefABCDEF".toList.all (·.toNat < 0x80) = true := by decide
  exact of_decide_eq_true (List.all_eq_true.mp hall c h)

theorem IsBlank.toNat_lt {c : Char} (h : IsBlank c) : c.toNat < 0x80 := by
  have hall : " \t\n\x0b\x0c\r".toList.all (·.toNat < 0x80) = true := by decide
  exact of_decide_eq_true (List.all_eq_true.mp hall c h)

/-- What is hex is in ASCII. -/
theorem Paired.toNat_lt {s : List Char} (h : Paired s) : ∀ c ∈ s, c.toNat < 0x80 := by
  induction h with
  | nil => exact List.forall_mem_nil _
  | blank hc _ ih => exact List.forall_mem_cons.mpr ⟨hc.toNat_lt, ih⟩
  | pair hc hd _ ih =>
    exact List.forall_mem_cons.mpr ⟨hc.toNat_lt, List.forall_mem_cons.mpr ⟨hd.toNat_lt, ih⟩⟩

theorem isAsciiBlank_iff {c : Char} : Text.isAsciiBlank c = true ↔ IsBlank c := by
  by_cases hc : c.toNat < 0x80
  · exact Text.forall_ascii (P := fun c => Text.isAsciiBlank c = true ↔ IsBlank c)
      (by decide +kernel) hc
  · have hwide : Text.isAsciiBlank c = false := by
      simp only [Text.isAsciiBlank, Bool.or_eq_false_iff, Bool.and_eq_false_iff,
        decide_eq_false_iff_not]
      omega
    simp only [hwide, Bool.false_eq_true, false_iff]
    exact fun hblank => hc hblank.toNat_lt

/-- What a digit stands for, and how it is written. -/
theorem IsDigit.exists_digit {c : Char} (h : IsDigit c) :
    ∃ n < 16, Integer.hexDigit? c = some n ∧ c.toLower = Nat.digitChar n ∧ ¬IsBlank c :=
  Text.forall_ascii (P := fun c => IsDigit c → ∃ n < 16,
    Integer.hexDigit? c = some n ∧ c.toLower = Nat.digitChar n ∧ ¬IsBlank c)
    (by decide +kernel) h.toNat_lt h

theorem hexDigit?_eq_none {c : Char} (h : ¬IsDigit c) : Integer.hexDigit? c = none := by
  rwa [IsDigit, ← isSome_hexDigit?_iff, Option.not_isSome_iff_eq_none] at h

theorem pairsFrom_blank {c : Char} (h : IsBlank c) (place : Nat) (rest : List Char) :
    pairsFrom place (c :: rest) = pairsFrom (place + 1) rest := by
  cases rest <;> simp [pairsFrom, isAsciiBlank_iff.mpr h]

theorem bytePair_ofNat {high low : Nat} (hhigh : high < 16) (hlow : low < 16) :
    bytePair (UInt8.ofNat (16 * high + low)) = [Nat.digitChar high, Nat.digitChar low] := by
  have hbyte : (UInt8.ofNat (16 * high + low)).toNat = 16 * high + low := by
    simp only [UInt8.toNat_ofNat']
    omega
  have hdiv : (16 * high + low) / 16 = high := by omega
  have hmod : (16 * high + low) % 16 = low := by omega
  rw [bytePair, hbyte, hdiv, hmod]

/-- The reader goes through a text that is hex and goes on with what stands behind it. -/
theorem Paired.pairsFrom_append {s : List Char} (h : Paired s) :
    ∃ b : Bytes, digits b = squeezed s ∧ ∀ place rest,
      pairsFrom place (s ++ rest) = (pairsFrom (place + s.length) rest).map (b ++ ·) := by
  induction h with
  | nil =>
    refine ⟨[], rfl, fun place rest => ?_⟩
    cases hrest : pairsFrom place rest <;> simp [hrest, Except.map]
  | @blank c s hc _ ih =>
    obtain ⟨b, hdigits, hread⟩ := ih
    refine ⟨b, by simp [squeezed, hc, hdigits], fun place rest => ?_⟩
    rw [List.cons_append, pairsFrom_blank hc, hread, List.length_cons, Nat.add_right_comm,
      Nat.add_assoc]
  | @pair c d s hc hd _ ih =>
    obtain ⟨b, hdigits, hread⟩ := ih
    obtain ⟨high, hhigh, hc, hlowerHigh, hblankHigh⟩ := hc.exists_digit
    obtain ⟨low, hlow, hd, hlowerLow, hblankLow⟩ := hd.exists_digit
    refine ⟨UInt8.ofNat (16 * high + low) :: b, ?_, fun place rest => ?_⟩
    · have hcons : digits (UInt8.ofNat (16 * high + low) :: b)
          = bytePair (UInt8.ofNat (16 * high + low)) ++ digits b := by simp [digits]
      rw [hcons, bytePair_ofNat hhigh hlow, hdigits]
      simp [squeezed, hblankHigh, hblankLow, hlowerHigh, hlowerLow]
    · have hblank : ¬(Text.isAsciiBlank c = true) := mt isAsciiBlank_iff.mp hblankHigh
      have hplace : place + (c :: d :: s).length = place + 2 + s.length := by
        simp only [List.length_cons]
        omega
      rw [List.cons_append, List.cons_append, pairsFrom, if_neg hblank, hc, hd, hplace]
      simp only [hread]
      cases pairsFrom (place + 2 + s.length) rest <;> rfl

/-- What is hex is read. -/
theorem Paired.exists_pairsFrom {s : List Char} (h : Paired s) :
    ∃ b : Bytes, digits b = squeezed s ∧ pairsFrom 0 s = .ok b := by
  obtain ⟨b, hdigits, hread⟩ := h.pairsFrom_append
  refine ⟨b, hdigits, ?_⟩
  have hall := hread 0 []
  rw [List.append_nil] at hall
  rw [hall]
  simp [pairsFrom, Except.map]

/-- What is not is refused where it stops being hex. -/
theorem Misfit.pairsFrom_eq {s : List Char} {place : Nat} (h : Misfit s place) :
    pairsFrom 0 s = .error place := by
  cases h with
  | @first pre rest c hpre hdigit hblank =>
    obtain ⟨b, -, hread⟩ := hpre.pairsFrom_append
    have hnone := hexDigit?_eq_none hdigit
    have hwide : ¬(Text.isAsciiBlank c = true) := mt isAsciiBlank_iff.mp hblank
    rw [hread, Nat.zero_add]
    cases rest <;> simp [pairsFrom, hwide, hnone, Except.map]
  | @second pre rest c d hpre hc hd =>
    obtain ⟨b, -, hread⟩ := hpre.pairsFrom_append
    obtain ⟨n, -, hn, -, hblank⟩ := hc.exists_digit
    have hnone := hexDigit?_eq_none hd
    have hwide : ¬(Text.isAsciiBlank c = true) := mt isAsciiBlank_iff.mp hblank
    rw [hread, Nat.zero_add]
    simp [pairsFrom, hwide, hn, hnone, Except.map]
  | @atEnd pre c hpre hc =>
    obtain ⟨b, -, hread⟩ := hpre.pairsFrom_append
    obtain ⟨n, -, hn, -, hblank⟩ := hc.exists_digit
    have hwide : ¬(Text.isAsciiBlank c = true) := mt isAsciiBlank_iff.mp hblank
    rw [hread, Nat.zero_add]
    simp [pairsFrom, hwide, hn, Except.map]

/-! ## Texts -/

theorem isAscii_dropMark {s : Text} (h : s.IsAscii) : (dropMark s).IsAscii := by
  unfold dropMark
  split
  · rename_i rest hpoints
    intro p hp
    exact h p (by simp [hpoints, hp])
  · exact h

/-- In ASCII texts the first misfit is what the reader reports. -/
theorem readPairs_of_isAscii {t : Text} (h : t.IsAscii) :
    readPairs t.chars = pairsFrom 0 t.chars := by
  obtain ⟨s, rfl, hascii⟩ := Text.exists_chars_of_isAscii h
  have hnone : s.findIdx? (fun c => decide (0x80 ≤ c.toNat)) = none := by
    rw [List.findIdx?_eq_none_iff]
    exact fun c hc => decide_eq_false (Nat.not_le.mpr (hascii c hc))
  rw [Text.chars_ofChars, readPairs, hnone]

theorem decode_of_paired {s : Text} (hs : s.IsAscii) (h : Paired (dropMark s).chars) :
    ∃ b, decode s = .ok b ∧
      (encode b : Text) = .ofChars ('0' :: 'x' :: squeezed (dropMark s).chars) := by
  obtain ⟨b, hdigits, hb⟩ := h.exists_pairsFrom
  refine ⟨b, ?_, ?_⟩
  · rw [decode, readPairs_of_isAscii (isAscii_dropMark hs), hb]
  · rw [encode, Text.ofString_ofList, hdigits]

theorem decode_of_misfit {s : Text} {place : Nat} (hs : s.IsAscii)
    (h : Misfit (dropMark s).chars place) : decode s = .error (.notHex place) := by
  rw [decode, readPairs_of_isAscii (isAscii_dropMark hs), h.pairsFrom_eq]

/-- **Bytes that are written are read back. Of all ASCII texts those are read that are hex behind
their mark, and the others are refused where they stop being hex.** -/
theorem decode_grammar :
    (∀ b : Bytes, decode (encode b) = .ok b) ∧
    ∀ s : Text, s.IsAscii →
      ((∃ b, decode s = .ok b) ↔ Paired (dropMark s).chars) ∧
      (∀ b, decode s = .ok b →
        (encode b : Text) = .ofChars ('0' :: 'x' :: squeezed (dropMark s).chars)) ∧
      ∀ fault, decode s = .error fault ↔
        ∃ place, Misfit (dropMark s).chars place ∧ fault = .notHex place ∧ fault.kind = .value := by
  refine ⟨decode_encode, fun s hs => ?_⟩
  rcases paired_or_misfit (dropMark s).chars with hpaired | ⟨place, hmisfit⟩
  · obtain ⟨b, hb, hwritten⟩ := decode_of_paired hs hpaired
    refine ⟨⟨fun _ => hpaired, fun _ => ⟨b, hb⟩⟩, fun b' hb' => ?_, fun fault => ⟨fun h => ?_, ?_⟩⟩
    · obtain rfl := Except.ok.inj (hb.symm.trans hb')
      exact hwritten
    · cases hb.symm.trans h
    · rintro ⟨place, hmisfit, -⟩
      cases hb.symm.trans (decode_of_misfit hs hmisfit)
  · have hplace := decode_of_misfit hs hmisfit
    refine ⟨⟨?_, fun hpaired => ?_⟩, fun b hb => ?_, fun fault => ⟨fun h => ?_, ?_⟩⟩
    · rintro ⟨b, hb⟩
      cases hplace.symm.trans hb
    · obtain ⟨b, hb, -⟩ := decode_of_paired hs hpaired
      exact ⟨b, hb⟩
    · cases hplace.symm.trans hb
    · obtain rfl := Except.error.inj (hplace.symm.trans h)
      exact ⟨place, hmisfit, rfl, rfl⟩
    · rintro ⟨place', hmisfit', rfl, -⟩
      exact decode_of_misfit hs hmisfit'

/-- Blanks and capitals are read, a second mark is not, and a digit may not be alone. -/
theorem decode_grammar_marked_twice :
    (∃ b, decode "0x 0A\tfF\n" = .ok b ∧ (encode b : Text) = "0x0aff") ∧
    decode "0x0x0aff" = .error (.notHex 1) ∧ decode "0x0af" = .error (.notHex 3) := by
  obtain ⟨-, hall⟩ := decode_grammar
  obtain ⟨hread, hwritten, -⟩ := hall "0x 0A\tfF\n" (by decide)
  obtain ⟨-, -, htwice⟩ := hall "0x0x0aff" (by decide)
  obtain ⟨-, -, halone⟩ := hall "0x0af" (by decide)
  obtain ⟨b, hb⟩ := hread.mpr (.blank (by decide) (.pair (by decide) (by decide)
    (.blank (by decide) (.pair (by decide) (by decide) (.blank (by decide) .nil)))))
  refine ⟨⟨b, hb, (hwritten b hb).trans (by decide)⟩, ?_, ?_⟩
  · exact (htwice _).mpr ⟨1, .second .nil (by decide) (by decide), rfl, rfl⟩
  · exact (halone _).mpr ⟨3, .atEnd (.pair (by decide) (by decide) .nil) (by decide), rfl, rfl⟩

end CellNft.Hex
