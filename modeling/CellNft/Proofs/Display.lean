/-
CellNft.Proofs.Display — which values are shown like hex.

A check of what is shown of a value says little about the value: a whole number and a text may look
alike. `Value.eq_str_of_marked` is why a check for the mark of hex says more: of all values only
texts are shown with `0x` in front.

* Whole numbers are shown in decimal, also those that were written in hex. In what is shown of
  numbers, dates and moments there is no `x` anywhere.
* Bytes, and all values with parts, are shown with another character than a zero in front (`Opens`).
-/
import CellNft.Proofs.Ascii
import CellNft.Value.Display

namespace CellNft

/-! ## Marks -/

/-- A text that starts with the mark of hex. -/
def Text.IsMarked (t : Text) : Prop := ∃ rest, t.chars = '0' :: 'x' :: rest

/-- No mark without an `x`. -/
theorem Text.not_isMarked_of_notMem {s : List Char} (h : 'x' ∉ s) : ¬(ofChars s).IsMarked := by
  rintro ⟨rest, hchars⟩
  rw [chars_ofChars] at hchars
  simp [hchars] at h

/-- No mark without a zero in front. -/
theorem Text.not_isMarked_cons {c : Char} (h : c ≠ '0') (s : List Char) :
    ¬(ofChars (c :: s)).IsMarked := by
  rintro ⟨rest, hchars⟩
  rw [chars_ofChars] at hchars
  exact h (List.cons.inj hchars).1

/-- A string that starts with another character than a zero. -/
def Opens (s : String) : Prop := ∃ c, s.toList.head? = some c ∧ c ≠ '0'

/-- What stands behind does not matter. -/
theorem Opens.append {s : String} (h : Opens s) (t : String) : Opens (s ++ t) := by
  obtain ⟨c, hc, hne⟩ := h
  exact ⟨c, by rw [String.toList_append, List.head?_append, hc]; rfl, hne⟩

theorem Opens.not_isMarked {s : String} (h : Opens s) : ¬(Text.ofString s).IsMarked := by
  obtain ⟨c, hc, hne⟩ := h
  obtain ⟨rest, hrest⟩ := List.head?_eq_some_iff.mp hc
  rw [Text.ofString, hrest]
  exact Text.not_isMarked_cons hne rest

/-! ## Numbers, dates and moments -/

/-- No decimal digit is the letter of the mark. -/
theorem notMem_toDigits (n : Nat) : 'x' ∉ Nat.toDigits 10 n := by
  intro h
  have hdigit : 'x'.isDigit = true := Nat.isDigit_of_mem_toDigits (by decide) (by decide) h
  exact absurd hdigit (by decide)

/-- A sign is no `x` either. -/
theorem notMem_toList_int (n : Int) : 'x' ∉ (toString n).toList := by
  cases n with
  | ofNat m =>
    have htext : toString (Int.ofNat m) = toString m := rfl
    rw [htext, Nat.toString_eq_ofList_toDigits, String.toList_ofList]
    exact notMem_toDigits m
  | negSucc m =>
    have htext : toString (Int.negSucc m) = "-" ++ toString (m + 1) := rfl
    rw [htext, Nat.toString_eq_ofList_toDigits]
    simp [notMem_toDigits]

namespace Binary64

/-- An exponent is an `e`, a sign and digits. -/
theorem notMem_exponentText (e : Int) : 'x' ∉ exponentText e := by
  have hdigits := notMem_toDigits e.natAbs
  simp only [exponentText, List.mem_cons, not_or]
  refine ⟨?_, ?_⟩
  · split <;> decide
  · split
    · exact List.not_mem_cons_of_ne_of_not_mem (by decide) hdigits
    · exact hdigits

/-- The layouts of a double take the digits apart and put a point, zeros or an exponent to them. -/
theorem notMem_layOut {digits : List Char} (h : 'x' ∉ digits) (p : Int) :
    'x' ∉ layOut digits p := by
  have htake : ∀ {s : List Char} (k : Nat), 'x' ∉ s → 'x' ∉ s.take k :=
    fun k hs => mt List.mem_of_mem_take hs
  have hdrop : ∀ {s : List Char} (k : Nat), 'x' ∉ s → 'x' ∉ s.drop k :=
    fun k hs => mt List.mem_of_mem_drop hs
  have hpadded : ∀ k, 'x' ∉ digits ++ List.replicate k '0' := by simp [h]
  unfold layOut
  split
  · -- Scientific.
    simp only [List.mem_append, List.mem_cons, not_or]
    refine ⟨⟨htake 1 h, ?_⟩, by decide, notMem_exponentText _⟩
    split
    · exact List.not_mem_nil
    · exact List.not_mem_cons_of_ne_of_not_mem (by decide) (hdrop 1 h)
  · split
    · simp [h]
    · simp only [List.mem_append, List.mem_cons, not_or]
      refine ⟨htake _ (hpadded _), by decide, ?_⟩
      split
      · decide
      · exact hdrop _ (hpadded _)

theorem notMem_shortest (r : Rat) : 'x' ∉ (shortest r).1 := by
  intro h
  rw [shortest, List.mem_reverse] at h
  exact notMem_toDigits _ (List.mem_reverse.mp ((List.dropWhile_sublist _).subset h))

/-- A double is shown with digits, a point and an exponent, or as `nan` or `inf`. -/
theorem notMem_text (x : Binary64) : 'x' ∉ x.text.toList := by
  unfold text
  split
  · decide
  · split <;> decide
  · rename_i negative _ _ _
    have hbody : 'x' ∉ (if x.isZero then ['0', '.', '0'] else
        layOut (shortest ((ofMagnitude false (x.bits % signBit)).toRat?.getD 0)).1
          (shortest ((ofMagnitude false (x.bits % signBit)).toRat?.getD 0)).2) := by
      split
      · decide
      · exact notMem_layOut (notMem_shortest _) _
    rw [String.toList_ofList]
    split
    · exact List.not_mem_cons_of_ne_of_not_mem (by decide) hbody
    · exact hbody

end Binary64

namespace Calendar

theorem notMem_padded (width n : Nat) : 'x' ∉ padded width n := by
  simp [padded, notMem_toDigits, List.mem_replicate]

/-- Three numbers and two dashes. -/
theorem Date.notMem_text (d : Date) : 'x' ∉ d.text := by
  simp [Date.text, notMem_padded]

/-- A date and a time, and the offset if it is known. -/
theorem Moment.notMem_text (t : Moment) : 'x' ∉ t.text := by
  have hoffset : ∀ o : Offset, 'x' ∉ offsetText o := by
    intro o
    unfold offsetText
    split <;> simp [notMem_padded]
  have hknown : 'x' ∉ (t.offset.map offsetText).getD [] := by
    cases t.offset with
    | none => exact List.not_mem_nil
    | some o => exact hoffset o
  simp [text, t.date.notMem_text, notMem_padded, hknown]

end Calendar

/-! ## Values -/

/-- Numbers, dates and moments have no `x`; bytes have a `b` in front. -/
theorem Scalar.eq_str_of_marked {s : Scalar} (h : s.display.IsMarked) : ∃ t, s = .str t := by
  cases s with
  | str t => exact ⟨t, rfl⟩
  | null => exact absurd h (Text.not_isMarked_of_notMem (by decide))
  | bool b => cases b <;> exact absurd h (Text.not_isMarked_of_notMem (by decide))
  | int n => exact absurd h (Text.not_isMarked_of_notMem (notMem_toList_int n))
  | float x => exact absurd h (Text.not_isMarked_of_notMem x.notMem_text)
  | bytes b =>
    have htext : (Scalar.bytes b).display = .ofChars ('b' :: b.quoted.tail) :=
      Text.ofString_ofList _
    rw [htext] at h
    exact absurd h (Text.not_isMarked_cons (by decide) _)
  | date d => exact absurd h (Text.not_isMarked_of_notMem d.notMem_text)
  | moment t => exact absurd h (Text.not_isMarked_of_notMem t.notMem_text)

/-- **Only a text is shown with a mark in front.** Whatever has parts is shown with a bracket in
front, or as the empty set. -/
theorem Value.eq_str_of_marked {v : Value} (h : v.display.IsMarked) : ∃ t, v = .str t := by
  have hbracket : Opens "[" := ⟨'[', by decide, by decide⟩
  have hround : Opens "(" := ⟨'(', by decide, by decide⟩
  have hbrace : Opens "\x7b" := ⟨'\x7b', by decide, by decide⟩
  have hset : Opens "set()" := ⟨'s', by decide, by decide⟩
  cases v with
  | scalar s =>
    obtain ⟨t, rfl⟩ := Scalar.eq_str_of_marked h
    exact ⟨t, rfl⟩
  | list items => exact absurd h ((hbracket.append _).append _).not_isMarked
  | pair a b => exact absurd h ((((hround.append _).append _).append _).append _).not_isMarked
  | set members =>
    cases members with
    | nil => exact absurd h hset.not_isMarked
    | cons m rest => exact absurd h ((hbrace.append _).append _).not_isMarked
  | dict entries => exact absurd h ((hbrace.append _).append _).not_isMarked

end CellNft
