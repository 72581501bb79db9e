/-
CellNft.Proofs.Bech32 — which texts are read, and what they are read as.

`Sealed variant text hrp words` says what makes a text right: it consists of a human readable part,
the last `1`, and the characters of words whose remainder is the constant of the variant. Case does
not count. `decodeWords?_eq_some_iff` says that exactly these texts are read. Three facts follow:

* `decode?_encode`: what is written is read back;
* `Sealed.unique`: a text has one human readable part and one row of words, so it is right for one
  variant only;
* `Sealed.changed`: of two right texts that differ in one character, one has the human readable part
  of another length, or the two human readable parts differ in that character.

The last one is the detection of a changed character. Behind the separator a character is a word,
so there `polymod_ne_of_changed` applies.
-/
import CellNft.Proofs.Checksum
import CellNft.Proofs.Regrouping
import Mathlib.Data.List.TakeWhile

namespace CellNft.Bech32

/-! ## The charset -/

theorem wordOf?_charOf {w : Nat} (h : w < 32) : wordOf? (charOf w) = some w := by
  have hall : ∀ w < 32, wordOf? (charOf w) = some w := by decide
  exact hall w h

theorem charOf_of_wordOf? {c : Char} {w : Nat} (h : wordOf? c = some w) :
    w < 32 ∧ c = charOf w := by
  obtain ⟨hlt, hget, -⟩ := List.idxOf?_eq_some_iff.mp h
  refine ⟨hlt, ?_⟩
  rw [charOf, List.getD_eq_getElem _ _ hlt, hget]

/-- What the characters of words are like: visible, in lower case, and no separator. -/
theorem charOf_facts {w : Nat} (h : w < 32) :
    33 ≤ (charOf w).toNat ∧ (charOf w).toNat ≤ 126 ∧ (charOf w).toLower = charOf w ∧
      charOf w ≠ '1' := by
  have hall : ∀ w < 32, 33 ≤ (charOf w).toNat ∧ (charOf w).toNat ≤ 126 ∧
      (charOf w).toLower = charOf w ∧ charOf w ≠ '1' := by decide
  exact hall w h

/-- Characters are read as words exactly if they are the characters of these. -/
theorem mapM_wordOf?_eq_some_iff : ∀ {s : List Char} {words : List Nat},
    s.mapM wordOf? = some words ↔ s = words.map charOf ∧ ∀ w ∈ words, w < 32
  | [], words => by
      simp only [List.mapM_nil, Option.pure_def, Option.some.injEq, List.nil_eq,
        List.map_eq_nil_iff]
      constructor
      · rintro rfl
        exact ⟨rfl, by nofun⟩
      · exact fun h => h.1
  | c :: rest, words => by
      simp only [List.mapM_cons, Option.bind_eq_bind, Option.bind_eq_some_iff, Option.pure_def,
        Option.some.injEq, mapM_wordOf?_eq_some_iff]
      constructor
      · rintro ⟨w, hw, ws, ⟨rfl, hsmall⟩, rfl⟩
        obtain ⟨hlt, rfl⟩ := charOf_of_wordOf? hw
        exact ⟨rfl, List.forall_mem_cons.mpr ⟨hlt, hsmall⟩⟩
      · rintro ⟨hs, hsmall⟩
        obtain ⟨w, ws, rfl, hw, hws⟩ := List.map_eq_cons_iff.mp hs.symm
        obtain ⟨hlt, hsmall⟩ := List.forall_mem_cons.mp hsmall
        exact ⟨w, hw ▸ wordOf?_charOf hlt, ws, ⟨hws.symm, hsmall⟩, rfl⟩

/-- Rows of words with the same characters are the same. -/
theorem map_charOf_injective {words words' : List Nat} (h : ∀ w ∈ words, w < 32)
    (h' : ∀ w ∈ words', w < 32) (heq : words.map charOf = words'.map charOf) : words = words' := by
  have hread := mapM_wordOf?_eq_some_iff.mpr ⟨heq, h'⟩
  rw [mapM_wordOf?_eq_some_iff.mpr ⟨rfl, h⟩] at hread
  exact Option.some.inj hread

/-! ## The separator -/

theorem splitAtSeparator?_append {front behind : List Char} (h : '1' ∉ behind) :
    splitAtSeparator? (front ++ '1' :: behind) = some (front, behind) := by
  have hother : ∀ c ∈ behind.reverse, decide (c ≠ '1') = true := by
    intro c hc
    rw [decide_eq_true_eq]
    rintro rfl
    exact h (List.mem_reverse.mp hc)
  have hrev : (front ++ '1' :: behind).reverse = behind.reverse ++ '1' :: front.reverse := by simp
  rw [splitAtSeparator?, hrev, List.takeWhile_append_of_pos hother,
    List.dropWhile_append_of_pos hother, List.takeWhile_cons_of_neg (by decide),
    List.dropWhile_cons_of_neg (by decide)]
  simp

/-- A text is cut at its last separator. -/
theorem splitAtSeparator?_eq_some_iff {s front behind : List Char} :
    splitAtSeparator? s = some (front, behind) ↔ s = front ++ '1' :: behind ∧ '1' ∉ behind := by
  constructor
  · intro h
    rw [splitAtSeparator?] at h
    split at h
    · cases h
    · rename_i hsome
      obtain ⟨rfl, rfl⟩ := Prod.mk.inj (Option.some.inj h)
      rw [List.isEmpty_reverse, List.isEmpty_iff] at hsome
      obtain ⟨c, rest, hdrop⟩ := List.exists_cons_of_ne_nil hsome
      have hc : decide (c ≠ '1') = false := by
        have hhead := List.head?_dropWhile_not (fun c => decide (c ≠ '1')) s.reverse
        rwa [hdrop] at hhead
      obtain rfl : c = '1' := by simpa using hc
      have hrow := congrArg List.reverse
        (List.takeWhile_append_dropWhile (p := fun c => decide (c ≠ '1')) (l := s.reverse))
      rw [hdrop, List.reverse_reverse] at hrow
      refine ⟨?_, fun hmem => ?_⟩
      · rw [hdrop, List.reverse_cons, List.dropLast_concat]
        simpa using hrow.symm
      · have := List.mem_takeWhile_imp (List.mem_reverse.mp hmem)
        simp at this
  · rintro ⟨rfl, h⟩
    exact splitAtSeparator?_append h

/-! ## Right texts -/

/-- A text with a human readable part and words, the six of the checksum among them. -/
structure Sealed (variant : Variant) (text hrp : List Char) (words : List Nat) : Prop where
  visible : ∀ c ∈ text, 33 ≤ c.toNat ∧ c.toNat ≤ 126
  lower : text.map Char.toLower = hrp ++ '1' :: words.map charOf
  small : ∀ w ∈ words, w < 32
  named : hrp ≠ []
  checked : 6 ≤ words.length
  remainder : polymod (expand hrp ++ words) = variant.constant

/-- The separator does not stand among the characters of words. -/
theorem separator_notMem {words : List Nat} (h : ∀ w ∈ words, w < 32) :
    '1' ∉ words.map charOf := by
  intro hmem
  obtain ⟨w, hw, heq⟩ := List.mem_map.mp hmem
  exact (charOf_facts (h w hw)).2.2.2 heq

/-- **Exactly the right texts are read.** -/
theorem decodeWords?_eq_some_iff {variant : Variant} {text hrp : List Char} {body : List Nat} :
    decodeWords? variant text = some (hrp, body) ↔
      ∃ words, Sealed variant text hrp words ∧ body = words.take (words.length - 6) := by
  have hvisible : (text.any fun c => c.toNat < 33 || 126 < c.toNat) = false ↔
      ∀ c ∈ text, 33 ≤ c.toNat ∧ c.toNat ≤ 126 := by
    simp [List.any_eq_false]
  constructor
  · intro h
    rw [decodeWords?] at h
    split at h
    · cases h
    · rename_i hany
      rw [Bool.not_eq_true] at hany
      obtain ⟨⟨hrp', behind⟩, hsplit, h⟩ := Option.bind_eq_some_iff.mp h
      obtain ⟨hlower, -⟩ := splitAtSeparator?_eq_some_iff.mp hsplit
      simp only at h
      split at h
      · cases h
      · rename_i hlong
        obtain ⟨words, hwords, h⟩ := Option.bind_eq_some_iff.mp h
        split at h
        · rename_i hremainder
          obtain ⟨rfl, rfl⟩ := Prod.mk.inj (Option.some.inj h)
          obtain ⟨rfl, hsmall⟩ := mapM_wordOf?_eq_some_iff.mp hwords
          simp only [Bool.or_eq_true, List.isEmpty_iff, decide_eq_true_eq, not_or, Nat.not_lt,
            List.length_map] at hlong
          exact ⟨words, ⟨hvisible.mp hany, hlower, hsmall, hlong.1, hlong.2, hremainder⟩, rfl⟩
        · cases h
  · rintro ⟨words, h, rfl⟩
    have hsplit : splitAtSeparator? (text.map Char.toLower) = some (hrp, words.map charOf) :=
      splitAtSeparator?_eq_some_iff.mpr ⟨h.lower, separator_notMem h.small⟩
    have hlong : (hrp.isEmpty || decide ((words.map charOf).length < 6)) = false := by
      have hnamed := h.named
      have hchecked := h.checked
      simp [hnamed, hchecked]
    rw [decodeWords?, hvisible.mpr h.visible, hsplit]
    simp only [Bool.false_eq_true, if_false, Option.bind_eq_bind, Option.bind_some, hlong,
      mapM_wordOf?_eq_some_iff.mpr ⟨rfl, h.small⟩, h.remainder, if_true]

theorem decode?_eq_some_iff {variant : Variant} {text hrp : List Char} {bytes : Bytes} :
    decode? variant text = some (hrp, bytes) ↔ ∃ words, Sealed variant text hrp words ∧
      ofWords? (words.take (words.length - 6)) = some bytes := by
  rw [decode?]
  constructor
  · intro h
    obtain ⟨⟨hrp', body⟩, hbody, h⟩ := Option.bind_eq_some_iff.mp h
    obtain ⟨bytes', hbytes, h⟩ := Option.bind_eq_some_iff.mp h
    obtain ⟨rfl, rfl⟩ := Prod.mk.inj (Option.some.inj h)
    obtain ⟨words, hsealed, rfl⟩ := decodeWords?_eq_some_iff.mp hbody
    exact ⟨words, hsealed, hbytes⟩
  · rintro ⟨words, hsealed, hbytes⟩
    rw [decodeWords?_eq_some_iff.mpr ⟨words, hsealed, rfl⟩]
    simp [hbytes]

/-! ## Writing and reading -/

/-- A human readable part that can be written as it is. -/
structure Plain (hrp : List Char) : Prop where
  named : hrp ≠ []
  each : ∀ c ∈ hrp, 33 ≤ c.toNat ∧ c.toNat ≤ 126 ∧ c.toLower = c

theorem sealed_encodeWords {hrp : List Char} {words : List Nat} (variant : Variant)
    (hhrp : Plain hrp) (hwords : ∀ w ∈ words, w < 32) :
    Sealed variant (encodeWords variant hrp words) hrp (words ++ checksum variant hrp words) := by
  have hsmall : ∀ w ∈ words ++ checksum variant hrp words, w < 32 := by
    intro w hw
    rcases List.mem_append.mp hw with hw | hw
    · exact hwords w hw
    · exact lt_of_mem_checksum hw
  have hchars : ∀ c ∈ encodeWords variant hrp words,
      33 ≤ c.toNat ∧ c.toNat ≤ 126 ∧ c.toLower = c := by
    intro c hc
    rcases List.mem_append.mp hc with hc | hc
    · exact hhrp.each c hc
    · rcases List.mem_cons.mp hc with rfl | hc
      · decide
      · obtain ⟨w, hw, rfl⟩ := List.mem_map.mp hc
        obtain ⟨hlow, hhigh, hlower, -⟩ := charOf_facts (hsmall w hw)
        exact ⟨hlow, hhigh, hlower⟩
  refine ⟨fun c hc => ?_, ?_, hsmall, hhrp.named, ?_, polymod_checksum variant hrp words⟩
  · obtain ⟨hlow, hhigh, -⟩ := hchars c hc
    exact ⟨hlow, hhigh⟩
  · exact (List.map_congr_left fun c hc => (hchars c hc).2.2).trans (List.map_id _)
  · rw [List.length_append, length_checksum]
    omega

/-- **What is written is read back.** -/
theorem decode?_encode {hrp : List Char} (variant : Variant) (hhrp : Plain hrp) (payload : Bytes) :
    decode? variant (encode variant hrp payload) = some (hrp, payload) := by
  have hsealed := sealed_encodeWords variant hhrp fun w (hw : w ∈ toWords payload) =>
    lt_of_mem_toWords hw
  refine decode?_eq_some_iff.mpr ⟨_, hsealed, ?_⟩
  rw [List.length_append, length_checksum, Nat.add_sub_cancel, List.take_left, ofWords?_toWords]

/-- A text has one human readable part and one row of words. -/
theorem Sealed.unique {v v' : Variant} {text hrp hrp' : List Char} {words words' : List Nat}
    (h : Sealed v text hrp words) (h' : Sealed v' text hrp' words') :
    hrp = hrp' ∧ words = words' := by
  have hsplit : splitAtSeparator? (hrp ++ '1' :: words.map charOf) = some (hrp, words.map charOf) :=
    splitAtSeparator?_append (separator_notMem h.small)
  rw [← h.lower, h'.lower, splitAtSeparator?_append (separator_notMem h'.small)] at hsplit
  obtain ⟨rfl, hchars⟩ := Prod.mk.inj (Option.some.inj hsplit)
  exact ⟨rfl, map_charOf_injective h.small h'.small hchars.symm⟩

theorem Variant.constant_injective {v w : Variant} (h : v.constant = w.constant) : v = w := by
  cases v <;> cases w <;> first | rfl | exact absurd h (by decide)

/-- What is written for one variant is not read as the other. -/
theorem decode?_encode_of_ne {hrp : List Char} {variant other : Variant} (hne : variant ≠ other)
    (hhrp : Plain hrp) (payload : Bytes) :
    decode? other (encode variant hrp payload) = none := by
  have hsealed := sealed_encodeWords variant hhrp fun w (hw : w ∈ toWords payload) =>
    lt_of_mem_toWords hw
  rw [Option.eq_none_iff_forall_ne_some]
  rintro ⟨hrp', bytes⟩ h
  obtain ⟨words, hother, -⟩ := decode?_eq_some_iff.mp h
  obtain ⟨rfl, rfl⟩ := hsealed.unique hother
  exact hne (Variant.constant_injective (hsealed.remainder.symm.trans hother.remainder))

/-! ## One changed character -/

/-- Where two rows with a separator at the same place differ in one character, they differ on one
side of the separator only. -/
theorem sides_of_changed {hrp hrp' tail tail' front behind : List Char} {c d : Char}
    (hlen : hrp.length = hrp'.length) (hne : c ≠ d)
    (h : hrp ++ '1' :: tail = front ++ c :: behind)
    (h' : hrp' ++ '1' :: tail' = front ++ d :: behind) :
    (hrp = hrp' ∧ ∃ mid, tail = mid ++ c :: behind ∧ tail' = mid ++ d :: behind) ∨
      (hrp ≠ hrp' ∧ tail = tail') := by
  rcases List.append_eq_append_iff.mp h with ⟨mid, rfl, htail⟩ | ⟨mid, rfl, htail⟩
  · -- The separator stands before the change, or is what is changed.
    rw [List.append_assoc] at h'
    obtain ⟨hhrp, htail'⟩ := List.append_inj h' hlen.symm
    cases mid with
    | nil =>
      obtain ⟨rfl, -⟩ := List.cons.inj htail
      obtain ⟨rfl, -⟩ := List.cons.inj htail'
      exact absurd rfl hne
    | cons x mid =>
      obtain ⟨rfl, rfl⟩ := List.cons.inj htail
      obtain ⟨-, rfl⟩ := List.cons.inj htail'
      exact .inl ⟨hhrp.symm, mid, rfl, rfl⟩
  · cases mid with
    | nil =>
      obtain ⟨rfl, rfl⟩ := List.cons.inj htail
      obtain ⟨-, htail'⟩ := List.append_inj h' (by simpa using hlen.symm)
      obtain ⟨rfl, -⟩ := List.cons.inj htail'
      exact absurd rfl hne
    | cons x mid =>
      obtain ⟨rfl, rfl⟩ := List.cons.inj htail
      have hrow : hrp' ++ '1' :: tail' = (front ++ d :: mid) ++ '1' :: tail := by
        rw [h']
        simp
      obtain ⟨rfl, htail'⟩ := List.append_inj hrow (by simpa using hlen.symm)
      refine .inr ⟨fun heq => hne ?_, (List.cons.inj htail').2.symm⟩
      exact (List.cons.inj (List.append_cancel_left heq)).1

/-- **A changed character behind the separator makes a right text wrong for both variants.** So
where two right texts differ in one character, it is in the human readable part. -/
theorem Sealed.changed {v v' : Variant} {hrp hrp' front behind : List Char} {c d : Char}
    {words words' : List Nat} (h : Sealed v (front ++ c :: behind) hrp words)
    (h' : Sealed v' (front ++ d :: behind) hrp' words') (hlen : hrp.length = hrp'.length)
    (hne : c.toLower ≠ d.toLower) : hrp ≠ hrp' ∧ words = words' := by
  have hrow := h.lower
  have hrow' := h'.lower
  rw [List.map_append, List.map_cons] at hrow hrow'
  rcases sides_of_changed hlen hne hrow.symm hrow'.symm with ⟨rfl, mid, htail, htail'⟩ |
    ⟨hhrp, htail⟩
  · exfalso
    obtain ⟨ws, vs, rfl, hws, hvs⟩ := List.map_eq_append_iff.mp htail
    obtain ⟨x, xs, rfl, hx, hxs⟩ := List.map_eq_cons_iff.mp hvs
    obtain ⟨ws', vs', rfl, hws', hvs'⟩ := List.map_eq_append_iff.mp htail'
    obtain ⟨y, ys, rfl, hy, hys⟩ := List.map_eq_cons_iff.mp hvs'
    have hsmall := List.forall_mem_append.mp h.small
    have hsmall' := List.forall_mem_append.mp h'.small
    obtain rfl := map_charOf_injective hsmall.1 hsmall'.1 (hws.trans hws'.symm)
    obtain ⟨hxlt, hxsmall⟩ := List.forall_mem_cons.mp hsmall.2
    obtain ⟨hylt, hysmall⟩ := List.forall_mem_cons.mp hsmall'.2
    obtain rfl := map_charOf_injective hxsmall hysmall (hxs.trans hys.symm)
    have hxy : x ≠ y := by
      rintro rfl
      exact hne (hx.symm.trans hy)
    have hremainder := h.remainder
    have hremainder' := h'.remainder
    rw [← List.append_assoc] at hremainder hremainder'
    exact polymod_ne_of_changed hxlt hylt hxy hremainder v' hremainder'
  · exact ⟨hhrp, map_charOf_injective h.small h'.small htail⟩

end CellNft.Bech32
