/-
CellNft.Proofs.Ascii — texts of ASCII characters.

Such a text is its characters (`exists_chars_of_isAscii`), and its lower case is found character by
character, whatever the neighbours are (`chars_lower`).
-/
import CellNft.Text.Case

namespace CellNft.Text

@[simp] theorem chars_ofChars (s : List Char) : (ofChars s).chars = s := by
  simp [ofChars, chars, CodePoint.toChar, Function.comp_def]

theorem ofChars_inj {s s' : List Char} : ofChars s = ofChars s' ↔ s = s' := by
  refine ⟨fun h => ?_, congrArg ofChars⟩
  have hchars := congrArg chars h
  rwa [chars_ofChars, chars_ofChars] at hchars

theorem chars_append (a b : Text) : (a ++ b).chars = a.chars ++ b.chars := List.map_append

/-- Characters that do not stand for a half are the text itself. -/
theorem eq_ofChars_of_chars {t : Text} {s : List Char} (h : t.chars = s) (plain : '\ufffd' ∉ s) :
    t = ofChars s := by
  subst h
  obtain ⟨points⟩ := t
  refine congrArg Text.mk ?_
  rw [chars, List.map_map]
  refine (List.map_id points).symm.trans (List.map_congr_left fun p hp => ?_)
  cases p with
  | char c => rfl
  | half n => exact absurd (List.mem_map.mpr ⟨_, hp, rfl⟩) plain

theorem ofString_ofList (s : List Char) : ofString (String.ofList s) = ofChars s := by
  simp [ofString]

def IsAscii (t : Text) : Prop := ∀ p ∈ t.points, p.toNat < 0x80

instance (t : Text) : Decidable t.IsAscii := inferInstanceAs (Decidable (∀ p ∈ t.points, _))

theorem isAscii_ofChars {s : List Char} : (ofChars s).IsAscii ↔ ∀ c ∈ s, c.toNat < 0x80 :=
  List.forall_mem_map

theorem exists_chars_of_isAscii {t : Text} (h : t.IsAscii) :
    ∃ s : List Char, t = ofChars s ∧ ∀ c ∈ s, c.toNat < 0x80 := by
  obtain ⟨points⟩ := t
  induction points with
  | nil => exact ⟨[], rfl, by nofun⟩
  | cons p rest ih =>
    obtain ⟨s, hs, hascii⟩ := ih fun q hq => h q (List.mem_cons_of_mem p hq)
    have hp := h p List.mem_cons_self
    cases p with
    | char c => exact ⟨c :: s, by simp_all [ofChars], List.forall_mem_cons.mpr ⟨hp, hascii⟩⟩
    | half n =>
      rw [CodePoint.toNat, CodePoint.firstHalf] at hp
      omega

/-- What holds of the first characters holds of each of them. -/
theorem forall_ascii {P : Char → Prop} (h : ∀ n < 0x80, P (Char.ofNat n)) {c : Char}
    (hc : c.toNat < 0x80) : P c := by
  rw [← Char.ofNat_toNat c]
  exact h c.toNat hc

/-! ## Lower case -/

theorem lowerAt_char {c : Char} (h : c.toNat < 0x80) (before after : List CodePoint) :
    lowerAt before (.char c) after = [.char c.toLower] := by
  have hsigma : CodePoint.char c ≠ .char 'Σ' := by
    intro heq
    rw [CodePoint.char.inj heq] at h
    exact absurd h (by decide)
  simp [lowerAt, hsigma, mapPoint, lowerChar, h]

/-- ASCII text goes to lower case character by character, whatever stands before it. -/
theorem lowerFrom_ofChars : ∀ (s : List Char) (before : List CodePoint),
    (∀ c ∈ s, c.toNat < 0x80) →
    lowerFrom before (s.map .char) = (s.map Char.toLower).map .char
  | [], _, _ => rfl
  | c :: rest, before, h => by
      rw [List.map_cons, lowerFrom, lowerAt_char (h c List.mem_cons_self),
        lowerFrom_ofChars rest _ (fun d hd => h d (List.mem_cons_of_mem c hd))]
      rfl

theorem chars_lower {t : Text} (h : t.IsAscii) : t.lower.chars = t.chars.map Char.toLower := by
  obtain ⟨s, rfl, hascii⟩ := exists_chars_of_isAscii h
  have hlower : (ofChars s).lower = ofChars (s.map Char.toLower) :=
    congrArg Text.mk (lowerFrom_ofChars s [] hascii)
  rw [hlower, chars_ofChars, chars_ofChars]

end CellNft.Text
