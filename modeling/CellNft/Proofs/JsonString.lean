/-
CellNft.Proofs.JsonString — texts survive being written as JSON strings.

A character is written as itself, as a one-letter escape, or by its UTF-16 units, of which a
character beyond the first plane has two. The reader takes two units of a surrogate pair for one
character, wherever they come from. So a text comes back exactly if in it no first half of a pair is
directly followed by a second half (`Text.Whole`); a text of characters has no halves at all.

`readString_escapePoint` is what reading does with one code point. It needs to know what stands
behind a first half, which is why the induction of `readString_points` is over the neighbours, too.
-/
import CellNft.Json.Reader
import CellNft.Json.Writer
import CellNft.Proofs.Hex
import Mathlib

namespace CellNft

namespace CodePoint

/-- The first half of a surrogate pair. -/
def IsHigh (p : CodePoint) : Prop := 0xd800 ≤ p.toNat ∧ p.toNat < 0xdc00

/-- The second half of a surrogate pair. -/
def IsLow (p : CodePoint) : Prop := 0xdc00 ≤ p.toNat ∧ p.toNat < 0xe000

instance (p : CodePoint) : Decidable p.IsHigh := inferInstanceAs (Decidable (_ ∧ _))

instance (p : CodePoint) : Decidable p.IsLow := inferInstanceAs (Decidable (_ ∧ _))

theorem char_toNat_lt (c : Char) : c.toNat < 0xd800 ∨ 0xdfff < c.toNat ∧ c.toNat < 0x110000 :=
  c.valid

theorem toNat_half_lt (n : Fin 0x800) : (half n).toNat < 0x10000 := by
  have hn := n.isLt
  simp only [toNat, firstHalf]
  omega

theorem not_isHigh_char (c : Char) : ¬(char c).IsHigh := by
  rintro ⟨hlow, hhigh⟩
  have := char_toNat_lt c
  simp only [toNat] at hlow hhigh
  omega

theorem ofNat_toNat (p : CodePoint) : ofNat p.toNat = p := by
  cases p with
  | char c =>
    have hc := char_toNat_lt c
    rw [ofNat, dif_neg]
    · rw [toNat, Char.ofNat_toNat]
    · simp only [toNat, firstHalf]
      omega
  | half n =>
    have hn := n.isLt
    rw [ofNat, dif_pos]
    · simp [toNat, firstHalf]
    · simp only [toNat, firstHalf]
      omega

end CodePoint

/-- No first half of a surrogate pair is directly followed by a second half. -/
def Text.Whole (t : Text) : Prop := t.points.IsChain fun p q => ¬(p.IsHigh ∧ q.IsLow)

instance (t : Text) : Decidable t.Whole := inferInstanceAs (Decidable (List.IsChain _ _))

/-- A text of characters is whole. -/
theorem Text.whole_ofChars (s : List Char) : (ofChars s).Whole := by
  induction s with
  | nil => exact .nil
  | cons c rest ih =>
    cases rest with
    | nil => exact .singleton _
    | cons d rest => exact .cons_cons (fun h => CodePoint.not_isHigh_char c h.1) ih

namespace Json

/-! ## Units -/

theorem readUnit_hexPadded {n : Nat} (h : n < 0x10000) (rest : List CodePoint) :
    readUnit ((Text.hexPadded 4 n).map .char ++ rest) = some (n, rest) := by
  have hdigits : Text.hexPadded 4 n = [Nat.digitChar (n / 16 / 16 / 16),
      Nat.digitChar (n / 16 / 16 % 16), Nat.digitChar (n / 16 % 16), Nat.digitChar (n % 16)] := by
    rw [Text.hexPadded_succ, Text.hexPadded_succ, Text.hexPadded_succ,
      Text.hexPadded_one (by omega)]
    rfl
  have hdigit : ∀ d < 16, hexDigit? (.char (Nat.digitChar d)) = some d := fun d hd =>
    Hex.hexDigit?_digitChar hd
  rw [hdigits]
  simp only [List.map_cons, List.map_nil, List.cons_append, List.nil_append, readUnit,
    hdigit _ (show n / 16 / 16 / 16 < 16 by omega), hdigit _ (Nat.mod_lt _ (by decide : 0 < 16))]
  simp only [Option.bind_eq_bind, Option.bind_some, Option.pure_def, Option.some.injEq,
    Prod.mk.injEq, and_true]
  omega

theorem map_unitEscape (n : Nat) (rest : List CodePoint) : (unitEscape n).map .char ++ rest
    = .char '\\' :: .char 'u' :: ((Text.hexPadded 4 n).map .char ++ rest) := rfl

/-- What stands behind an escaped first half is no escaped second half. -/
def EndsPair (s : List CodePoint) : Prop :=
  ∀ tail, s = .char '\\' :: .char 'u' :: tail → ∃ low rest, readUnit tail = some (low, rest) ∧
    ¬(0xdc00 ≤ low ∧ low < 0xe000)

/-- A unit that is no part of a pair is read alone. -/
theorem readWide_alone {n : Nat} {s rest : List CodePoint} (hunit : readUnit s = some (n, rest))
    (hends : 0xd800 ≤ n ∧ n < 0xdc00 → EndsPair rest) : readWide s = some (.ofNat n, rest) := by
  rw [readWide, hunit]
  simp only [Option.bind_eq_bind, Option.bind_some]
  split
  · rename_i hhigh
    split
    · rename_i tail
      obtain ⟨low, rest', hlow, hno⟩ := hends hhigh tail rfl
      simp [hlow, hno]
    · rfl
  · rfl

/-- Two units of a pair are read together. -/
theorem readWide_pair {high low : Nat} {s tail rest : List CodePoint}
    (hunit : readUnit s = some (high, .char '\\' :: .char 'u' :: tail))
    (hunit' : readUnit tail = some (low, rest)) (hhigh : 0xd800 ≤ high ∧ high < 0xdc00)
    (hlow : 0xdc00 ≤ low ∧ low < 0xe000) :
    readWide s = some (.ofNat (0x10000 + (high - 0xd800) * 0x400 + (low - 0xdc00)), rest) := by
  simp [readWide, hunit, hunit', hhigh, hlow]

/-! ## Code points -/

theorem readString_wide {fuel : Nat} {tail rest : List CodePoint} {p : CodePoint}
    (h : readWide tail = some (p, rest)) :
    readString (fuel + 1) (.char '\\' :: .char 'u' :: tail)
      = (readString fuel rest).map fun r => (p :: r.1, r.2) := by
  rw [readString, h]
  simp only [Option.bind_eq_bind, Option.bind_some]
  cases readString fuel rest with
  | none => rfl
  | some r => rfl

theorem readString_unitEscape {n : Nat} (fuel : Nat) (h : n < 0x10000) {rest : List CodePoint}
    (hends : 0xd800 ≤ n ∧ n < 0xdc00 → EndsPair rest) :
    readString (fuel + 1) ((unitEscape n).map .char ++ rest)
      = (readString fuel rest).map fun r => (.ofNat n :: r.1, r.2) := by
  rw [map_unitEscape]
  exact readString_wide (readWide_alone (readUnit_hexPadded h rest) hends)

theorem readString_wideEscape (c : Char) (fuel : Nat) (rest : List CodePoint) :
    readString (fuel + 1) ((wideEscape c).map .char ++ rest)
      = (readString fuel rest).map fun r => (.char c :: r.1, r.2) := by
  have hc := CodePoint.char_toNat_lt c
  have hself : CodePoint.ofNat c.toNat = .char c := CodePoint.ofNat_toNat (.char c)
  simp only [wideEscape]
  split
  · rename_i hsmall
    rw [readString_unitEscape fuel hsmall, hself]
    omega
  · rename_i hwide
    have hhigh : 0xd800 + (c.toNat - 0x10000) / 0x400 < 0xdc00 := by omega
    have hlow : 0xdc00 + (c.toNat - 0x10000) % 0x400 < 0xe000 := by omega
    have hpair := readWide_pair (readUnit_hexPadded (by omega) _)
      (readUnit_hexPadded (by omega) rest) ⟨Nat.le_add_right _ _, hhigh⟩
      ⟨Nat.le_add_right _ _, hlow⟩
    have hsum : 0x10000 + (0xd800 + (c.toNat - 0x10000) / 0x400 - 0xd800) * 0x400
        + (0xdc00 + (c.toNat - 0x10000) % 0x400 - 0xdc00) = c.toNat := by omega
    rw [hsum, hself] at hpair
    rw [List.map_append, List.append_assoc, map_unitEscape, map_unitEscape]
    exact readString_wide hpair

/-- A character that may stand for itself does. -/
theorem readString_plain {c : Char} (fuel : Nat) (rest : List CodePoint) (hquote : c ≠ '"')
    (hescape : c ≠ '\\') (hcontrol : ¬c.toNat < 0x20) :
    readString (fuel + 1) (.char c :: rest)
      = (readString fuel rest).map fun r => (.char c :: r.1, r.2) := by
  rw [readString]
  · rw [if_neg]
    · cases readString fuel rest with
      | none => rfl
      | some r => rfl
    · simp [CodePoint.toNat, hcontrol, hescape]
  · simpa using hquote
  · simp [hescape]
  · simp [hescape]

/-- An escape of one letter stands for its character. -/
theorem readString_short {e c : Char} (fuel : Nat) (rest : List CodePoint)
    (h : shortEscape? e = some c) (hunit : e ≠ 'u') :
    readString (fuel + 1) (.char '\\' :: .char e :: rest)
      = (readString fuel rest).map fun r => (.char c :: r.1, r.2) := by
  rw [readString]
  · simp only [CodePoint.toChar, h, Option.bind_eq_bind, Option.bind_some]
    cases readString fuel rest with
    | none => rfl
    | some r => rfl
  · simpa using hunit

/-- A character is written as an escape of one letter, as itself, or by its units. -/
theorem escapeChar_cases (c : Char) :
    (∃ e, shortEscape? e = some c ∧ e ≠ 'u' ∧ escapeChar c = ['\\', e]) ∨
      (c ≠ '"' ∧ c ≠ '\\' ∧ ¬c.toNat < 0x20 ∧ escapeChar c = [c]) ∨
        escapeChar c = wideEscape c := by
  rw [escapeChar]
  split
  · rename_i h
    rcases (Bool.or_eq_true ..).mp h with h | h
    · obtain rfl := of_decide_eq_true h
      exact .inl ⟨'"', rfl, by decide, rfl⟩
    · obtain rfl := of_decide_eq_true h
      exact .inl ⟨'\\', rfl, by decide, rfl⟩
  rename_i hself
  split
  · rename_i h
    exact .inl ⟨'n', h ▸ rfl, by decide, rfl⟩
  split
  · rename_i h
    exact .inl ⟨'r', h ▸ rfl, by decide, rfl⟩
  split
  · rename_i h
    exact .inl ⟨'t', h ▸ rfl, by decide, rfl⟩
  split
  · rename_i h
    exact .inl ⟨'f', h ▸ rfl, by decide, rfl⟩
  split
  · rename_i h
    exact .inl ⟨'b', h ▸ rfl, by decide, rfl⟩
  split
  · rename_i hprintable
    simp only [Bool.or_eq_true, decide_eq_true_eq, not_or] at hself
    simp only [Bool.and_eq_true, decide_eq_true_eq] at hprintable
    exact .inr (.inl ⟨hself.1, hself.2, by omega, rfl⟩)
  · exact .inr (.inr rfl)

theorem readString_escapeChar (c : Char) (fuel : Nat) (rest : List CodePoint) :
    readString (fuel + 1) ((escapeChar c).map .char ++ rest)
      = (readString fuel rest).map fun r => (.char c :: r.1, r.2) := by
  rcases escapeChar_cases c with ⟨e, he, hunit, h⟩ | ⟨hquote, hescape, hcontrol, h⟩ | h
  · rw [h]
    exact readString_short fuel rest he hunit
  · rw [h]
    exact readString_plain fuel rest hquote hescape hcontrol
  · rw [h]
    exact readString_wideEscape c fuel rest

/-- What is written for a code point is read as that code point. -/
theorem readString_escapePoint (p : CodePoint) (fuel : Nat) {rest : List CodePoint}
    (hends : p.IsHigh → EndsPair rest) :
    readString (fuel + 1) ((escapePoint p).map .char ++ rest)
      = (readString fuel rest).map fun r => (p :: r.1, r.2) := by
  cases p with
  | char c => exact readString_escapeChar c fuel rest
  | half n =>
    have hread := readString_unitEscape fuel (CodePoint.toNat_half_lt n) hends
    rwa [CodePoint.ofNat_toNat] at hread

/-! ## Texts -/

theorem endsPair_unitEscape {n : Nat} (h : n < 0x10000) (hlow : ¬(0xdc00 ≤ n ∧ n < 0xe000))
    (rest : List CodePoint) : EndsPair ((unitEscape n).map .char ++ rest) := by
  intro tail htail
  rw [map_unitEscape] at htail
  obtain rfl := (List.cons.inj (List.cons.inj htail).2).2
  exact ⟨n, rest, readUnit_hexPadded h rest, hlow⟩

theorem endsPair_wideEscape (c : Char) (rest : List CodePoint) :
    EndsPair ((wideEscape c).map .char ++ rest) := by
  have hc := CodePoint.char_toNat_lt c
  simp only [wideEscape]
  split
  · rename_i hsmall
    exact endsPair_unitEscape hsmall (by omega) rest
  · rw [List.map_append, List.append_assoc]
    exact endsPair_unitEscape (by omega) (by omega) _

/-- A code point that is no second half ends a pair. -/
theorem endsPair_escapePoint {p : CodePoint} (h : ¬p.IsLow) (rest : List CodePoint) :
    EndsPair ((escapePoint p).map .char ++ rest) := by
  cases p with
  | char c =>
    rw [escapePoint]
    rcases escapeChar_cases c with ⟨e, he, hunit, heq⟩ | ⟨hquote, hescape, hcontrol, heq⟩ | heq
    · rw [heq]
      intro tail htail
      have hletter := (List.cons.inj (List.cons.inj htail).2).1
      exact absurd (CodePoint.char.inj hletter) hunit
    · rw [heq]
      intro tail htail
      exact absurd (CodePoint.char.inj (List.cons.inj htail).1) hescape
    · rw [heq]
      exact endsPair_wideEscape c rest
  | half n =>
    exact endsPair_unitEscape (CodePoint.toNat_half_lt n) h rest

theorem escapePoint_ne_nil (p : CodePoint) : escapePoint p ≠ [] := by
  cases p with
  | char c =>
    rw [escapePoint]
    rcases escapeChar_cases c with ⟨e, he, hunit, heq⟩ | ⟨hquote, hescape, hcontrol, heq⟩ | heq
    · rw [heq]
      exact List.cons_ne_nil _ _
    · rw [heq]
      exact List.cons_ne_nil _ _
    · simp only [heq, wideEscape]
      split
      · exact List.cons_ne_nil _ _
      · exact List.cons_ne_nil _ _
  | half n => exact List.cons_ne_nil _ _

/-- **What is written for a whole text is read back**, up to the closing quote. -/
theorem readString_points : ∀ (points : List CodePoint) (fuel : Nat) (rest : List CodePoint),
    (⟨points⟩ : Text).Whole → points.length < fuel →
    readString fuel ((points.flatMap escapePoint).map .char ++ .char '"' :: rest)
      = some (points, rest)
  | [], fuel + 1, rest, _, _ => rfl
  | p :: more, fuel + 1, rest, hwhole, hfuel => by
      have hmore := readString_points more fuel rest hwhole.tail (by simpa using hfuel)
      have hends : p.IsHigh →
          EndsPair ((more.flatMap escapePoint).map .char ++ .char '"' :: rest) := by
        intro hhigh
        cases more with
        | nil => rintro tail ⟨⟩
        | cons q others =>
          have hlow : ¬q.IsLow := fun hlow => (List.isChain_cons_cons.mp hwhole).1 ⟨hhigh, hlow⟩
          rw [List.flatMap_cons, List.map_append, List.append_assoc]
          exact endsPair_escapePoint hlow _
      rw [List.flatMap_cons, List.map_append, List.append_assoc,
        readString_escapePoint p fuel hends, hmore]
      rfl

theorem length_le_flatMap_escapePoint (points : List CodePoint) :
    points.length ≤ (points.flatMap escapePoint).length := by
  induction points with
  | nil => exact Nat.le_refl _
  | cons p rest ih =>
    have hp := List.length_pos_of_ne_nil (escapePoint_ne_nil p)
    rw [List.flatMap_cons, List.length_append, List.length_cons]
    omega

end Json
end CellNft
