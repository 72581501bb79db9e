/-
CellNft.Proofs.Spelling — which ASCII keys come back from the other spelling.

Title case starts anew behind everything that is no letter, and an underscore is put before capitals
only. So the `p` of `Out1point` comes back as a capital, and a key with two underscores in a row
loses one.

* `CamelSpelled`: the keys that come back from snake case (`returns_iff_camelSpelled`).
* `SnakeSpelled`: the keys that come back from camel case (`survives_iff_snakeSpelled`).

Both are exact. On ASCII, case is a matter of single characters, and both conversions are one walk
over them: `snakeRest` goes on behind the first character; `camelHead` goes up to the first
underscore and `camelRest` on behind it. What a walk does at a place depends on nothing but the
character before it. So the inductions are over the text behind a character, and what they say of
the two walks together is a chain condition on neighbours.
-/
import CellNft.Proofs.Ascii
import CellNft.Proofs.KeyCase
import Mathlib

namespace CellNft.KeyCase

/-! ## One character -/

section

variable {c : Char}

theorem isCapital_char (c : Char) : isCapital (.char c) = c.isUpper := by
  rw [Bool.eq_iff_iff, isCapital, Bool.and_eq_true, decide_eq_true_eq, decide_eq_true_eq]
  simp [Char.isUpper, UInt32.le_iff_toNat_le, CodePoint.toNat]

/-- Among ASCII characters the letters are cased. -/
theorem isCased_char (h : c.toNat < 0x80) : Text.isCased (.char c) = c.isAlpha :=
  Text.forall_ascii (P := fun c => Text.isCased (.char c) = c.isAlpha) (by decide +kernel) h

/-- A character is a capital, a small letter or no letter. -/
theorem letter_cases (c : Char) :
    c.isUpper = true ∧ c.isLower = false ∧ c.isAlpha = true ∨
      c.isUpper = false ∧ c.isLower = true ∧ c.isAlpha = true ∨
        c.isUpper = false ∧ c.isLower = false ∧ c.isAlpha = false := by
  rw [Char.isAlpha]
  cases hupper : c.isUpper with
  | true => simpa using Char.not_isLower_of_isUpper hupper
  | false => cases c.isLower <;> simp

theorem ne_underscore_of_isAlpha (h : c.isAlpha) : c ≠ '_' := by
  rintro rfl
  exact absurd h (by decide)

theorem toLower_eq_underscore : c.toLower = '_' ↔ c = '_' := by
  refine ⟨fun h => ?_, fun h => by rw [h]; rfl⟩
  by_cases hupper : c.isUpper
  · have halpha : c.toLower.isAlpha := by simp [Char.isAlpha, hupper]
    exact absurd h (ne_underscore_of_isAlpha halpha)
  · rwa [Char.toLower_eq_of_not_isUpper hupper] at h

theorem toUpper_eq_underscore : c.toUpper = '_' ↔ c = '_' := by
  refine ⟨fun h => ?_, fun h => by rw [h]; rfl⟩
  by_cases hlower : c.isLower
  · have halpha : c.toUpper.isAlpha := by simp [Char.isAlpha, hlower]
    exact absurd h (ne_underscore_of_isAlpha halpha)
  · rwa [Char.toUpper_eq_of_not_isLower hlower] at h

theorem toLower_eq_self : c.toLower = c ↔ c.isUpper = false := by
  refine ⟨fun h => ?_, fun h => Char.toLower_eq_of_not_isUpper (by simp [h])⟩
  rw [← h]
  exact Char.isUpper_toLower_eq_false c

theorem toUpper_eq_self : c.toUpper = c ↔ c.isLower = false := by
  refine ⟨fun h => ?_, fun h => Char.toUpper_eq_of_not_isLower (by simp [h])⟩
  rw [← h]
  exact Char.isLower_toUpper_eq_false c

end

/-! ## Both conversions as walks -/

/-- Snake case behind the first character. -/
def snakeRest : List Char → List Char
  | [] => []
  | c :: rest => if c.isUpper then '_' :: c.toLower :: snakeRest rest else c :: snakeRest rest

/-- A key of ASCII characters in snake case. -/
def snakeWalk : List Char → List Char
  | [] => []
  | c :: rest => c.toLower :: snakeRest rest

/-- Camel case behind the first underscore, with or without a letter just before. -/
def camelRest (letter : Bool) : List Char → List Char
  | [] => []
  | c :: rest =>
    if c = '_' then camelRest false rest
    else (if letter then c.toLower else c.toUpper) :: camelRest c.isAlpha rest

/-- A key of ASCII characters in camel case. -/
def camelHead : List Char → List Char
  | [] => []
  | c :: rest => if c = '_' then camelRest false rest else c :: camelHead rest

theorem lowerFrom_mark : ∀ (s : List Char) (before : List CodePoint), (∀ c ∈ s, c.toNat < 0x80) →
    Text.lowerFrom before (mark (s.map .char)) = (snakeRest s).map .char
  | [], _, _ => rfl
  | c :: rest, before, h => by
      obtain ⟨hc, hrest⟩ := List.forall_mem_cons.mp h
      rw [List.map_cons, mark, isCapital_char, snakeRest]
      split
      · have hmark : ('_' : Char).toNat < 0x80 := by decide
        rw [Text.lowerFrom, Text.lowerFrom, Text.lowerAt_char hmark, Text.lowerAt_char hc,
          lowerFrom_mark rest _ hrest]
        rfl
      · rename_i hsmall
        rw [Text.lowerFrom, Text.lowerAt_char hc, lowerFrom_mark rest _ hrest,
          Char.toLower_eq_of_not_isUpper hsmall]
        rfl

theorem snake_ofChars {s : List Char} (h : ∀ c ∈ s, c.toNat < 0x80) :
    snake (.ofChars s) = .ofChars (snakeWalk s) := by
  cases s with
  | nil => rfl
  | cons c rest =>
    obtain ⟨hc, hrest⟩ := List.forall_mem_cons.mp h
    have hlower : Text.lowerFrom [] (.char c :: mark (rest.map .char))
        = (snakeWalk (c :: rest)).map .char := by
      rw [Text.lowerFrom, Text.lowerAt_char hc, lowerFrom_mark rest _ hrest]
      rfl
    exact congrArg Text.mk hlower

/-- Whether a word goes on behind what stands before. -/
def goesOn (before : List CodePoint) : Bool := (before.head?.map Text.isCased).getD false

theorem titleFrom_char {c : Char} (h : c.toNat < 0x80) (before rest : List CodePoint) :
    Text.titleFrom before (.char c :: rest)
      = .char (if goesOn before then c.toLower else c.toUpper)
        :: Text.titleFrom (.char c :: before) rest := by
  rw [Text.titleFrom, Text.lowerAt_char h, goesOn]
  split
  · rfl
  · simp [Text.mapPoint, Text.titleChar, h]

/-- The first piece is taken as it is or in title case, and all others are in title case. -/
theorem exists_pieces : ∀ s : List Char, (∀ c ∈ s, c.toNat < 0x80) → ∃ word more,
    Text.pieces (.char '_') (s.map .char) = word :: more ∧
    word ++ more.flatMap (Text.titleFrom []) = (camelHead s).map .char ∧
    ∀ before, Text.titleFrom before word ++ more.flatMap (Text.titleFrom [])
      = (camelRest (goesOn before) s).map .char
  | [], _ => ⟨[], [], rfl, rfl, fun _ => rfl⟩
  | c :: rest, h => by
      obtain ⟨hc, hrest⟩ := List.forall_mem_cons.mp h
      obtain ⟨word, more, hpieces, hhead, htail⟩ := exists_pieces rest hrest
      rw [List.map_cons, Text.pieces, hpieces, camelHead]
      by_cases hmark : c = '_'
      · refine ⟨[], word :: more, if_pos (by rw [hmark]), ?_, fun before => ?_⟩
        · rw [if_pos hmark]
          exact htail []
        · rw [camelRest, if_pos hmark]
          exact htail []
      · refine ⟨.char c :: word, more, if_neg (by simpa using hmark), ?_, fun before => ?_⟩
        · rw [if_neg hmark, List.map_cons, ← hhead]
          rfl
        · have hcased : goesOn (.char c :: before) = c.isAlpha := isCased_char hc
          rw [titleFrom_char hc, camelRest, if_neg hmark, List.map_cons, ← hcased,
            ← htail (.char c :: before)]
          rfl

theorem camel_ofChars {s : List Char} (h : ∀ c ∈ s, c.toNat < 0x80) :
    camel (.ofChars s) = .ofChars (camelHead s) := by
  obtain ⟨word, more, hpieces, hhead, -⟩ := exists_pieces s h
  have hcut : Text.cut '_' (.ofChars s) = ⟨word⟩ :: more.map Text.mk := by
    rw [Text.cut, Text.ofChars, hpieces, List.map_cons]
  have hjoin : Text.join ((more.map Text.mk).map Text.title)
      = ⟨more.flatMap (Text.titleFrom [])⟩ := by
    simp [Text.join, Text.title, List.flatMap_map, List.map_map]
  rw [camel, hcut, join, hjoin]
  exact congrArg Text.mk hhead

/-! ## What the walks leave -/

theorem toNat_toLower_lt {c : Char} (h : c.toNat < 0x80) : c.toLower.toNat < 0x80 :=
  Text.forall_ascii (P := fun c => c.toLower.toNat < 0x80) (by decide) h

theorem toNat_toUpper_lt {c : Char} (h : c.toNat < 0x80) : c.toUpper.toNat < 0x80 :=
  Text.forall_ascii (P := fun c => c.toUpper.toNat < 0x80) (by decide) h

theorem ascii_snakeRest {s : List Char} (h : ∀ c ∈ s, c.toNat < 0x80) :
    ∀ c ∈ snakeRest s, c.toNat < 0x80 := by
  induction s with
  | nil => exact h
  | cons c rest ih =>
    obtain ⟨hc, hrest⟩ := List.forall_mem_cons.mp h
    rw [snakeRest]
    split
    · have hmark : ('_' : Char).toNat < 0x80 := by decide
      exact List.forall_mem_cons.mpr
        ⟨hmark, List.forall_mem_cons.mpr ⟨toNat_toLower_lt hc, ih hrest⟩⟩
    · exact List.forall_mem_cons.mpr ⟨hc, ih hrest⟩

theorem ascii_snakeWalk {s : List Char} (h : ∀ c ∈ s, c.toNat < 0x80) :
    ∀ c ∈ snakeWalk s, c.toNat < 0x80 := by
  cases s with
  | nil => exact h
  | cons c rest =>
    obtain ⟨hc, hrest⟩ := List.forall_mem_cons.mp h
    exact List.forall_mem_cons.mpr ⟨toNat_toLower_lt hc, ascii_snakeRest hrest⟩

theorem ascii_camelRest {s : List Char} (letter : Bool) (h : ∀ c ∈ s, c.toNat < 0x80) :
    ∀ c ∈ camelRest letter s, c.toNat < 0x80 := by
  induction s generalizing letter with
  | nil => exact h
  | cons c rest ih =>
    obtain ⟨hc, hrest⟩ := List.forall_mem_cons.mp h
    rw [camelRest]
    split
    · exact ih false hrest
    · refine List.forall_mem_cons.mpr ⟨?_, ih c.isAlpha hrest⟩
      split
      · exact toNat_toLower_lt hc
      · exact toNat_toUpper_lt hc

theorem ascii_camelHead {s : List Char} (h : ∀ c ∈ s, c.toNat < 0x80) :
    ∀ c ∈ camelHead s, c.toNat < 0x80 := by
  induction s with
  | nil => exact h
  | cons c rest ih =>
    obtain ⟨hc, hrest⟩ := List.forall_mem_cons.mp h
    rw [camelHead]
    split
    · exact ascii_camelRest false hrest
    · exact List.forall_mem_cons.mpr ⟨hc, ih hrest⟩

theorem underscore_notMem_camelRest (letter : Bool) (s : List Char) :
    '_' ∉ camelRest letter s := by
  induction s generalizing letter with
  | nil => exact List.not_mem_nil
  | cons c rest ih =>
    rw [camelRest]
    split
    · exact ih false
    · rename_i hc
      refine List.not_mem_cons_of_ne_of_not_mem (Ne.symm ?_) (ih c.isAlpha)
      split
      · exact fun h => hc (toLower_eq_underscore.mp h)
      · exact fun h => hc (toUpper_eq_underscore.mp h)

theorem camelRest_ne_underscore_cons (letter : Bool) (s t : List Char) :
    camelRest letter s ≠ '_' :: t := by
  intro h
  exact underscore_notMem_camelRest letter s (h ▸ List.mem_cons_self)

/-- Without underscores before there are no two of them in a row. -/
theorem snakeRest_ne_underscores {s : List Char} (h : '_' ∉ s) (t : List Char) :
    snakeRest s ≠ '_' :: '_' :: t := by
  cases s with
  | nil => nofun
  | cons c rest =>
    have hc : c ≠ '_' := Ne.symm (List.ne_of_not_mem_cons h)
    intro heq
    rw [snakeRest] at heq
    split at heq
    · obtain ⟨-, heq⟩ := List.cons.inj heq
      exact hc (toLower_eq_underscore.mp (List.cons.inj heq).1)
    · exact hc (List.cons.inj heq).1

/-! ## There and back from camel case -/

/-- A key without underscores that starts with no capital and in which, behind the first capital,
every small letter stands behind a letter. -/
structure CamelSpelled (s : List Char) : Prop where
  underscore_notMem : '_' ∉ s
  start : s.head?.any Char.isUpper = false
  small : (s.dropWhile fun c => !c.isUpper).IsChain fun a b => b.isLower → a.isAlpha

instance (s : List Char) : Decidable (CamelSpelled s) :=
  decidable_of_iff ('_' ∉ s ∧ s.head?.any Char.isUpper = false ∧
      (s.dropWhile fun c => !c.isUpper).IsChain fun a b => b.isLower → a.isAlpha)
    ⟨fun ⟨marks, start, small⟩ => ⟨marks, start, small⟩,
      fun ⟨marks, start, small⟩ => ⟨marks, start, small⟩⟩

theorem camelRest_snakeRest_iff (s : List Char) (a : Char) :
    camelRest a.isAlpha (snakeRest s) = s ↔
      '_' ∉ s ∧ (a :: s).IsChain fun a b => b.isLower → a.isAlpha := by
  induction s generalizing a with
  | nil => simp [snakeRest, camelRest]
  | cons c rest ih =>
    rw [snakeRest, List.isChain_cons_cons, List.mem_cons, not_or]
    by_cases hmark : c = '_'
    · subst hmark
      simp [camelRest, camelRest_ne_underscore_cons]
    by_cases hupper : c.isUpper
    · have hlower : c.isLower = false := by simpa using Char.not_isLower_of_isUpper hupper
      have hnext := ih c
      simp [hupper, camelRest, toLower_eq_underscore, hmark, Ne.symm hmark,
        toUpper_eq_self.mpr hlower, hlower, hnext]
    · have hself : c.toLower = c := Char.toLower_eq_of_not_isUpper hupper
      have hletter : (a.isAlpha = false → c.toUpper = c) ↔ (c.isLower → a.isAlpha) := by
        rw [toUpper_eq_self]
        cases a.isAlpha <;> simp
      have hnext := ih c
      simp [hupper, camelRest, hmark, Ne.symm hmark, hself, hletter, hnext, and_left_comm]

theorem camelHead_snakeRest_iff (s : List Char) :
    camelHead (snakeRest s) = s ↔ '_' ∉ s ∧
      (s.dropWhile fun c => !c.isUpper).IsChain fun a b => b.isLower → a.isAlpha := by
  induction s with
  | nil => simp [snakeRest, camelHead]
  | cons c rest ih =>
    rw [snakeRest]
    by_cases hmark : c = '_'
    · subst hmark
      simp [camelHead, camelRest_ne_underscore_cons]
    by_cases hupper : c.isUpper
    · have hlower : c.isLower = false := by simpa using Char.not_isLower_of_isUpper hupper
      have hrest := camelRest_snakeRest_iff rest c
      simp [hupper, camelHead, camelRest, toLower_eq_underscore, hmark, Ne.symm hmark,
        toUpper_eq_self.mpr hlower, hrest]
    · simp [hupper, camelHead, hmark, Ne.symm hmark, ih]

theorem camelHead_snakeWalk_iff (s : List Char) :
    camelHead (snakeWalk s) = s ↔ CamelSpelled s := by
  cases s with
  | nil => exact iff_of_true rfl ⟨List.not_mem_nil, rfl, .nil⟩
  | cons c rest =>
    by_cases hmark : c = '_'
    · subst hmark
      refine iff_of_false (camelRest_ne_underscore_cons false (snakeRest rest) rest) ?_
      exact fun h => h.underscore_notMem List.mem_cons_self
    · have hlower : c.toLower ≠ '_' := fun h => hmark (toLower_eq_underscore.mp h)
      rw [snakeWalk, camelHead, if_neg hlower, List.cons.injEq, toLower_eq_self,
        camelHead_snakeRest_iff]
      constructor
      · rintro ⟨hupper, hmarks, hsmall⟩
        exact ⟨List.not_mem_cons_of_ne_of_not_mem (Ne.symm hmark) hmarks, hupper,
          by simpa [hupper] using hsmall⟩
      · rintro ⟨hmarks, hstart, hsmall⟩
        have hupper : c.isUpper = false := hstart
        exact ⟨hupper, List.not_mem_of_not_mem_cons hmarks, by simpa [hupper] using hsmall⟩

/-! ## There and back from snake case -/

/-- A key without capitals that starts with no underscore and in which every underscore stands
before a small letter and, behind the first underscore, every small letter stands behind a letter or
an underscore. -/
structure SnakeSpelled (s : List Char) : Prop where
  small : ∀ c ∈ s, c.isUpper = false
  start : s.head? ≠ some '_'
  followed : s.IsChain fun a b => a = '_' → b.isLower
  stop : s.getLast? ≠ some '_'
  preceded : (s.dropWhile (· ≠ '_')).IsChain fun a b => b.isLower → a.isAlpha ∨ a = '_'

instance (s : List Char) : Decidable (SnakeSpelled s) :=
  decidable_of_iff (s.any Char.isUpper = false ∧ s.head? ≠ some '_' ∧
      (s.IsChain fun a b => a = '_' → b.isLower) ∧ s.getLast? ≠ some '_' ∧
      (s.dropWhile (· ≠ '_')).IsChain fun a b => b.isLower → a.isAlpha ∨ a = '_')
    ⟨fun ⟨small, start, followed, stop, preceded⟩ =>
        ⟨by simpa using small, start, followed, stop, preceded⟩,
      fun ⟨small, start, followed, stop, preceded⟩ =>
        ⟨by simpa using small, start, followed, stop, preceded⟩⟩

/-- What may stand behind `a` where an underscore is `a` or stands before it. -/
structure SnakeTail (a : Char) (s : List Char) : Prop where
  small : ∀ c ∈ s, c.isUpper = false
  followed : (a :: s).IsChain fun a b => a = '_' → b.isLower
  stop : (a :: s).getLast? ≠ some '_'
  preceded : (a :: s).IsChain fun a b => b.isLower → a.isAlpha ∨ a = '_'

theorem snakeTail_nil (a : Char) : SnakeTail a [] ↔ a ≠ '_' := by
  constructor
  · intro h
    simpa using h.stop
  · intro ha
    exact ⟨by simp, .singleton a, by simpa using ha, .singleton a⟩

theorem snakeTail_cons (a c : Char) (rest : List Char) :
    SnakeTail a (c :: rest) ↔ c.isUpper = false ∧ (a = '_' → c.isLower) ∧
      (c.isLower → a.isAlpha ∨ a = '_') ∧ SnakeTail c rest := by
  constructor
  · rintro ⟨hsmall, hfollowed, hstop, hpreceded⟩
    obtain ⟨hc, hsmall⟩ := List.forall_mem_cons.mp hsmall
    obtain ⟨hac, hfollowed⟩ := List.isChain_cons_cons.mp hfollowed
    obtain ⟨hca, hpreceded⟩ := List.isChain_cons_cons.mp hpreceded
    rw [List.getLast?_cons_cons] at hstop
    exact ⟨hc, hac, hca, hsmall, hfollowed, hstop, hpreceded⟩
  · rintro ⟨hc, hac, hca, hsmall, hfollowed, hstop, hpreceded⟩
    refine ⟨List.forall_mem_cons.mpr ⟨hc, hsmall⟩, List.isChain_cons_cons.mpr ⟨hac, hfollowed⟩, ?_,
      List.isChain_cons_cons.mpr ⟨hca, hpreceded⟩⟩
    rwa [List.getLast?_cons_cons]

/-- An underscore that camel case leaves out comes back before the next capital. -/
theorem snakeRest_camelRest_iff (s : List Char) (a : Char) :
    snakeRest (camelRest a.isAlpha s) = (if a = '_' then '_' :: s else s) ↔ SnakeTail a s := by
  induction s generalizing a with
  | nil => simp [camelRest, snakeRest, snakeTail_nil]
  | cons c rest ih =>
    rw [snakeTail_cons, camelRest]
    have hnext := ih c
    by_cases hc : c = '_'
    · subst hc
      by_cases ha : a = '_'
      · subst ha
        refine iff_of_false ?_ (by simp)
        exact snakeRest_ne_underscores (underscore_notMem_camelRest false rest) rest
      · have hfalse : ('_' : Char).isAlpha = false := rfl
        simp [ha, ← hnext, hfalse]
    · rw [if_neg hc] at hnext
      have hmark : ('_' : Char).isAlpha = false := rfl
      rcases letter_cases c with ⟨hupper, hlower, halpha⟩ | ⟨hupper, hlower, halpha⟩ |
        ⟨hupper, hlower, halpha⟩
      · have hmoved : c.toLower ≠ c := by simp [toLower_eq_self, hupper]
        by_cases ha : a = '_'
        · subst ha
          simp [hc, hmark, snakeRest, halpha, hmoved, hupper]
        · cases hbefore : a.isAlpha with
          | true => simp [ha, hc, snakeRest, hmoved, hupper]
          | false => simp [ha, hc, Ne.symm hc, snakeRest, halpha, hupper]
      · have hself := toLower_eq_self.mpr hupper
        by_cases ha : a = '_'
        · subst ha
          rw [halpha] at hnext
          simp [hc, hmark, snakeRest, halpha, hself, hupper, hlower, hnext]
        · cases hbefore : a.isAlpha with
          | true => simp [ha, hc, snakeRest, hself, hupper, hnext]
          | false => simp [ha, hc, Ne.symm hc, snakeRest, halpha, hupper, hlower]
      · have hself := toLower_eq_self.mpr hupper
        have hself' := toUpper_eq_self.mpr hlower
        rw [halpha] at hnext
        by_cases ha : a = '_'
        · subst ha
          simp [hc, hmark, snakeRest, halpha, hself', hupper, hlower]
        · simp [ha, hc, snakeRest, halpha, hself, hself', hupper, hlower, hnext]

theorem snakeSpelled_underscore {c : Char} (rest : List Char) (hc : c ≠ '_') :
    SnakeSpelled (c :: '_' :: rest) ↔ c.isUpper = false ∧ SnakeTail '_' rest := by
  constructor
  · rintro ⟨hsmall, -, hfollowed, hstop, hpreceded⟩
    obtain ⟨hupper, hsmall⟩ := List.forall_mem_cons.mp hsmall
    rw [List.dropWhile_cons_of_pos (by simpa using hc),
      List.dropWhile_cons_of_neg (by simp)] at hpreceded
    rw [List.getLast?_cons_cons] at hstop
    exact ⟨hupper, List.forall_mem_of_forall_mem_cons hsmall, hfollowed.tail, hstop, hpreceded⟩
  · rintro ⟨hupper, hsmall, hfollowed, hstop, hpreceded⟩
    refine ⟨by simpa [hupper] using hsmall, by simpa using hc,
      List.isChain_cons_cons.mpr ⟨?_, hfollowed⟩, ?_, ?_⟩
    · exact fun h => absurd h hc
    · rwa [List.getLast?_cons_cons]
    · rwa [List.dropWhile_cons_of_pos (by simpa using hc), List.dropWhile_cons_of_neg (by simp)]

theorem snakeSpelled_cons_cons {c d : Char} (rest : List Char) (hc : c ≠ '_') (hd : d ≠ '_') :
    SnakeSpelled (c :: d :: rest) ↔ c.isUpper = false ∧ SnakeSpelled (d :: rest) := by
  constructor
  · rintro ⟨hsmall, -, hfollowed, hstop, hpreceded⟩
    obtain ⟨hupper, hsmall⟩ := List.forall_mem_cons.mp hsmall
    rw [List.dropWhile_cons_of_pos (by simpa using hc)] at hpreceded
    rw [List.getLast?_cons_cons] at hstop
    exact ⟨hupper, hsmall, by simpa using hd, hfollowed.tail, hstop, hpreceded⟩
  · rintro ⟨hupper, hsmall, -, hfollowed, hstop, hpreceded⟩
    refine ⟨List.forall_mem_cons.mpr ⟨hupper, hsmall⟩, by simpa using hc,
      List.isChain_cons_cons.mpr ⟨?_, hfollowed⟩, ?_, ?_⟩
    · exact fun h => absurd h hc
    · rwa [List.getLast?_cons_cons]
    · rwa [List.dropWhile_cons_of_pos (by simpa using hc)]

/-- Up to the first underscore both walks leave a key alone. -/
theorem snakeSpelled_cons (s : List Char) {c : Char} (hc : c ≠ '_') :
    SnakeSpelled (c :: s) ↔ c.isUpper = false ∧ snakeRest (camelHead s) = s := by
  induction s generalizing c with
  | nil =>
    refine ⟨fun h => ⟨h.small c List.mem_cons_self, rfl⟩, fun ⟨hupper, _⟩ => ?_⟩
    exact ⟨by simpa using hupper, by simpa using hc, .singleton c, by simpa using hc,
      by simp [hc]⟩
  | cons d rest ih =>
    by_cases hd : d = '_'
    · subst hd
      rw [snakeSpelled_underscore rest hc, ← snakeRest_camelRest_iff rest '_', camelHead,
        if_pos rfl, if_pos rfl]
      rfl
    · rw [snakeSpelled_cons_cons rest hc hd, ih hd, camelHead, if_neg hd, snakeRest]
      split
      · rename_i hupper
        simp [hupper, Ne.symm hd]
      · rename_i hupper
        simp [hupper]

theorem snakeWalk_camelHead_iff (s : List Char) :
    snakeWalk (camelHead s) = s ↔ SnakeSpelled s := by
  cases s with
  | nil => exact iff_of_true rfl ⟨nofun, nofun, .nil, nofun, .nil⟩
  | cons c rest =>
    by_cases hc : c = '_'
    · subst hc
      refine iff_of_false ?_ fun h => h.start rfl
      intro h
      have hmem := underscore_notMem_camelRest false rest
      rw [camelHead, if_pos rfl] at h
      cases hrest : camelRest false rest with
      | nil =>
        rw [hrest] at h
        cases h
      | cons d more =>
        rw [hrest] at h hmem
        have hd := toLower_eq_underscore.mp (List.cons.inj h).1
        exact List.ne_of_not_mem_cons hmem hd.symm
    · rw [camelHead, if_neg hc, snakeWalk, List.cons.injEq, toLower_eq_self,
        snakeSpelled_cons rest hc]

/-! ## Texts and records -/

theorem returns_iff {t : Text} (h : t.IsAscii) : Returns t ↔ CamelSpelled t.chars := by
  obtain ⟨s, rfl, hascii⟩ := Text.exists_chars_of_isAscii h
  rw [Returns, snake_ofChars hascii, camel_ofChars (ascii_snakeWalk hascii), Text.chars_ofChars,
    Text.ofChars_inj]
  exact camelHead_snakeWalk_iff s

theorem survives_iff {t : Text} (h : t.IsAscii) : Survives t ↔ SnakeSpelled t.chars := by
  obtain ⟨s, rfl, hascii⟩ := Text.exists_chars_of_isAscii h
  rw [Survives, camel_ofChars hascii, snake_ofChars (ascii_camelHead hascii), Text.chars_ofChars,
    Text.ofChars_inj]
  exact snakeWalk_camelHead_iff s

/-- **The ASCII keys that come back from snake case are those that are spelled in camel case, and a
record of such keys comes back as it was.** In snake case no two of its keys are one. -/
theorem returns_iff_camelSpelled :
    (∀ t : Text, t.IsAscii → (camel (snake t) = t ↔ CamelSpelled t.chars)) ∧
    ∀ v : Value, v.JsonKeys (fun t => t.IsAscii ∧ CamelSpelled t.chars) →
      v.snakeKeys = .ok (v.rename snake) ∧ (v.rename snake).JsonKeys Survives ∧
        (v.rename snake).camelKeys = .ok v := by
  refine ⟨fun t h => returns_iff h, fun v hv => ?_⟩
  have hreturns : v.JsonKeys Returns := hv.mono fun t h => (returns_iff h.1).mpr h.2
  refine ⟨Value.snakeKeys_eq_rename hreturns.textKeys, ?_,
    Value.camelKeys_rename_snake hreturns.textKeys⟩
  exact hreturns.rename (fun _ _ => Returns.injective) fun t h => congrArg snake h

/-- A cell of a request, and a key in which a digit stands before a capital. -/
theorem returns_iff_camelSpelled_cell :
    let cell : Value := .record [("capacity", .str "0x1"), ("lock", .record [("codeHash", .null),
      ("hashType", .str "type")]), ("outPoints", .list [.record [("txHash", .str "0x"),
        ("index256", .int 0)], .null])]
    cell.snakeKeys = .ok (cell.rename snake) ∧ (cell.rename snake).camelKeys = .ok cell ∧
      camel (snake "out1Point") = "out1Point" := by
  intro cell
  have hcell : cell.JsonKeys (fun t => t.IsAscii ∧ CamelSpelled t.chars) :=
    .of_hasKeys (by decide)
  have hkey : Text.IsAscii "out1Point" ∧ CamelSpelled (Text.chars "out1Point") := by
    decide
  obtain ⟨hexact, hrecords⟩ := returns_iff_camelSpelled
  obtain ⟨hsnake, -, hcamel⟩ := hrecords cell hcell
  exact ⟨hsnake, hcamel, (hexact "out1Point" hkey.1).mpr hkey.2⟩

/-- Behind a digit a small letter comes back as a capital. -/
example : camel (snake "hasOut1point") = "hasOut1Point" := by decide

/-- **The ASCII keys that come back from camel case are those that are spelled in snake case, and a
record of such keys comes back as it was.** In camel case no two of its keys are one. -/
theorem survives_iff_snakeSpelled :
    (∀ t : Text, t.IsAscii → (snake (camel t) = t ↔ SnakeSpelled t.chars)) ∧
    ∀ v : Value, v.JsonKeys (fun t => t.IsAscii ∧ SnakeSpelled t.chars) →
      v.camelKeys = .ok (v.rename camel) ∧ (v.rename camel).JsonKeys Returns ∧
        (v.rename camel).snakeKeys = .ok v := by
  refine ⟨fun t h => survives_iff h, fun v hv => ?_⟩
  have hsurvives : v.JsonKeys Survives := hv.mono fun t h => (survives_iff h.1).mpr h.2
  exact ⟨Value.camelKeys_eq_rename hsurvives.textKeys, hsurvives.rename_camel,
    Value.snakeKeys_rename_camel hsurvives.textKeys⟩

/-- A cell of a reply, and a key in which a digit stands before an underscore. -/
theorem survives_iff_snakeSpelled_cell :
    let cell : Value := .record [("block_number", .str "0x1"), ("output", .record [
      ("capacity", .str "0x2"),
      ("lock", .record [("code_hash", .null), ("hash_type", .str "type")]),
      ("type", .null)]), ("out_points", .list [.record [("tx_hash", .str "0x")], .int 3])]
    cell.camelKeys = .ok (cell.rename camel) ∧ (cell.rename camel).snakeKeys = .ok cell ∧
      snake (camel "out1_point") = "out1_point" := by
  intro cell
  have hcell : cell.JsonKeys (fun t => t.IsAscii ∧ SnakeSpelled t.chars) :=
    .of_hasKeys (by decide)
  have hkey : Text.IsAscii "out1_point" ∧ SnakeSpelled (Text.chars "out1_point") := by
    decide
  obtain ⟨hexact, hrecords⟩ := survives_iff_snakeSpelled
  obtain ⟨hcamel, -, hsnake⟩ := hrecords cell hcell
  exact ⟨hcamel, hsnake, (hexact "out1_point" hkey.1).mpr hkey.2⟩

/-- Before a digit an underscore is lost. -/
example : snake (camel "hash_160") = "hash160" := by decide

end CellNft.KeyCase
