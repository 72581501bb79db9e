/-
CellNft.Proofs.JsonText — values survive being written as JSON.

A reader works on what is left of a text, so each lemma says what is read of a written part with
anything behind it:

* Of what is behind a number the reader wants to know that the number does not go on (`Delimits`).
  Blanks, commas and closing brackets end a number, and nothing else stands behind a value.
* Layouts differ in the blanks around commas and inside brackets, which the reader skips
  (`Layout.Blank`). No value begins with a blank (`Representable.exists_cons`).
* `ReadsBack` says it of a value at every depth and with any fuel that is twice the length of its
  text. Items and entries are read one after the other (`readItems_back`, `readEntries_back`).

`parseWithin_line`: a value is read back from the line that shows it. That is so for every
`Representable` value, whether the reader takes numbers of any size or only of so many digits.

`representable_iff_carried`: numbers apart every such value can be written, and then any reader
takes it that takes as many digits as are written.
-/
import CellNft.Proofs.Carried
import CellNft.Proofs.JsonString

namespace CellNft.Json

open Outcome

/-! ## Whole numbers -/

/-- What may stand behind a value: a blank, a comma, a bracket that closes, or nothing. -/
def Delimits (s : List CodePoint) : Prop :=
  ∀ p ∈ s.head?, p.toChar ∈ [' ', '\t', '\n', '\r', ',', ']', '\x7d']

/-- A number does not go on with any of them. -/
theorem not_goesOn {p : CodePoint}
    (h : p.toChar ∈ [' ', '\t', '\n', '\r', ',', ']', '\x7d']) :
    isDigit p = false ∧ p ≠ .char '.' ∧ p ≠ .char 'e' ∧ p ≠ .char 'E' := by
  have hne : ∀ c ∈ ['.', 'e', 'E'], p ≠ .char c := by
    rintro c hc rfl
    simp only [List.mem_cons, List.not_mem_nil, or_false, CodePoint.toChar] at h hc
    rcases hc with rfl | rfl | rfl <;> simp at h
  refine ⟨?_, hne _ (by simp), hne _ (by simp), hne _ (by simp)⟩
  rw [isDigit]
  generalize p.toChar = c at h
  simp only [List.mem_cons, List.not_mem_nil, or_false] at h
  rcases h with rfl | rfl | rfl | rfl | rfl | rfl | rfl <;> rfl

theorem isDigit_char {c : Char} (h : c.isDigit) : isDigit (.char c) := by
  simp only [Char.isDigit, Bool.and_eq_true, decide_eq_true_eq] at h
  rw [isDigit, Bool.and_eq_true]
  exact ⟨decide_eq_true h.1, decide_eq_true h.2⟩

theorem isDigit_of_mem_digits {n : Nat} {p : CodePoint}
    (h : p ∈ (Nat.toDigits 10 n).map CodePoint.char) : isDigit p := by
  obtain ⟨c, hc, rfl⟩ := List.mem_map.mp h
  exact isDigit_char (Nat.isDigit_of_mem_toDigits (by decide) (by decide) hc)

theorem ofDigits_digits (n : Nat) : ofDigits ((Nat.toDigits 10 n).map .char) = n := by
  have hvalue : Nat.ofDigitChars 10 (Nat.toDigits 10 n) 0 = n := Nat.ofDigitChars_ten_toDigits
  rw [Nat.ofDigitChars] at hvalue
  rw [ofDigits, List.foldl_map]
  simpa [Nat.mul_comm, CodePoint.toNat] using hvalue

/-- A zero in front stands alone. -/
theorem eq_nil_of_toDigits {n : Nat} {s : List Char} (h : Nat.toDigits 10 n = '0' :: s) :
    s = [] := by
  induction n using Nat.strongRecOn generalizing s with
  | ind n ih =>
    rw [Nat.toDigits_eq_if (by decide)] at h
    split at h
    · exact (List.cons.inj h).2.symm
    · rename_i hn
      cases hfront : Nat.toDigits 10 (n / 10) with
      | nil => exact absurd hfront Nat.toDigits_ne_nil
      | cons c rest =>
        rw [hfront, List.cons_append] at h
        obtain rfl := (List.cons.inj h).1
        obtain rfl := ih (n / 10) (by omega) hfront
        have hvalue := ofDigits_digits (n / 10)
        rw [hfront] at hvalue
        have hzero : ofDigits (['0'].map .char) = 0 := rfl
        omega

/-- The digits of a number are what the reader takes for them. -/
theorem takeWhile_digits (n : Nat) {rest : List CodePoint} (hrest : Delimits rest) :
    ((Nat.toDigits 10 n).map CodePoint.char ++ rest).takeWhile isDigit
      = (Nat.toDigits 10 n).map .char := by
  rw [List.takeWhile_append_of_pos fun p hp => isDigit_of_mem_digits hp]
  cases rest with
  | nil => exact List.append_nil _
  | cons p more =>
    have hp := (not_goesOn (hrest p rfl)).1
    rw [List.takeWhile_cons_of_neg (by simp [hp]), List.append_nil]

theorem readFraction_of_delimits {s : List CodePoint} (h : Delimits s) :
    readFraction s = ([], s) := by
  unfold readFraction
  split
  · exact absurd rfl (not_goesOn (h _ rfl)).2.1
  · rfl

theorem readExponent_of_delimits {s : List CodePoint} (h : Delimits s) :
    readExponent s = none := by
  cases s with
  | nil => rfl
  | cons p rest =>
    obtain ⟨-, -, hsmall, hcapital⟩ := not_goesOn (h p rfl)
    simp [readExponent, hsmall, hcapital]

theorem readUnsigned_digits {most : Option Nat} (negative : Bool) (n : Nat) {rest : List CodePoint}
    (hlength : most.any (· < (Nat.toDigits 10 n).length) = false) (hrest : Delimits rest) :
    readUnsigned most negative ((Nat.toDigits 10 n).map .char ++ rest)
      = .ok (.int (if negative then -(n : Int) else n), rest) := by
  have hsome : ((Nat.toDigits 10 n).map CodePoint.char).isEmpty = false := by
    simp [Nat.toDigits_ne_nil]
  unfold readUnsigned
  extract_lets whole behind tail
  have hwhole : whole = (Nat.toDigits 10 n).map .char := by
    simp only [whole]
    split
    · rename_i more heq
      cases hdigits : Nat.toDigits 10 n with
      | nil => exact absurd hdigits Nat.toDigits_ne_nil
      | cons c front =>
        rw [hdigits] at heq
        obtain rfl := CodePoint.char.inj (List.cons.inj heq).1
        rw [eq_nil_of_toDigits hdigits]
        rfl
    · exact takeWhile_digits n hrest
  clear_value whole
  subst hwhole
  have hbehind : behind = rest := List.drop_left
  rw [hsome, if_neg Bool.false_ne_true]
  simp only [tail, hbehind, readFraction_of_delimits hrest, readExponent_of_delimits hrest]
  rw [wholeNumber, List.length_map, hlength, ofDigits_digits]
  rfl

theorem toList_toString (n : Int) : (toString n).toList
    = if n < 0 then '-' :: Nat.toDigits 10 n.natAbs else Nat.toDigits 10 n.natAbs := by
  rw [Int.toString_eq_repr, Int.repr_eq_if]
  by_cases hn : n < 0
  · have habs : (-n).toNat = n.natAbs := by omega
    rw [if_neg (by omega), if_pos hn, String.toList_append, Nat.toList_repr, habs]
    rfl
  · have habs : n.toNat = n.natAbs := by omega
    rw [if_pos (by omega), if_neg hn, Nat.toList_repr, habs]

/-- Where one of the first two characters is a digit there is no word. -/
theorem findSome?_words {s : List CodePoint} (h : ∃ p ∈ s.take 2, isDigit p) :
    (words.findSome? fun w => (afterWord? w.1 s).map fun rest => (w.2, rest)) = none := by
  obtain ⟨p, hp, hdigit⟩ := h
  have hletters : ∀ w ∈ words,
      2 ≤ w.1.points.length ∧ ∀ p ∈ w.1.points.take 2, ¬isDigit p := by decide
  rw [List.findSome?_eq_none_iff]
  intro w hw
  obtain ⟨hlength, hletter⟩ := hletters w hw
  rw [afterWord?, if_neg]
  · rfl
  · intro hprefix
    obtain ⟨more, rfl⟩ := List.isPrefixOf_iff_prefix.mp hprefix
    rw [List.take_append_of_le_length hlength] at hp
    exact hletter p hp hdigit

theorem readAtom_int {most : Option Nat} {n : Int} {rest : List CodePoint}
    (hlength : most.any (· < (Nat.toDigits 10 n.natAbs).length) = false) (hrest : Delimits rest) :
    readAtom most ((toString n).toList.map .char ++ rest) = .ok (.int n, rest) := by
  have hsome : Nat.toDigits 10 n.natAbs ≠ [] := Nat.toDigits_ne_nil
  obtain ⟨d, ds, hdigits⟩ := List.exists_cons_of_ne_nil hsome
  have hd : isDigit (.char d) := isDigit_of_mem_digits (n := n.natAbs) (by simp [hdigits])
  rw [toList_toString]
  by_cases hn : n < 0
  · have hread := readUnsigned_digits true n.natAbs hlength hrest
    have hvalue : -(n.natAbs : Int) = n := by omega
    rw [if_pos rfl, hvalue] at hread
    rw [if_pos hn]
    unfold readAtom
    rw [findSome?_words ⟨.char d, by simp [hdigits], hd⟩]
    exact hread
  · have hread := readUnsigned_digits false n.natAbs hlength hrest
    have hvalue : (n.natAbs : Int) = n := by omega
    rw [if_neg Bool.false_ne_true, hvalue] at hread
    rw [if_neg hn]
    unfold readAtom
    rw [findSome?_words ⟨.char d, by simp [hdigits], hd⟩]
    simp only
    split
    · rename_i more heq
      rw [hdigits] at heq
      obtain rfl := CodePoint.char.inj (List.cons.inj heq).1
      exact absurd hd (by decide)
    · exact hread

theorem readAtom_null (most : Option Nat) (rest : List CodePoint) :
    readAtom most ("null".toList.map .char ++ rest) = .ok (.null, rest) := rfl

theorem readAtom_bool (most : Option Nat) (b : Bool) (rest : List CodePoint) :
    readAtom most ((writeScalar (.bool b)).map .char ++ rest) = .ok (.bool b, rest) := by
  cases b with
  | false => rfl
  | true => rfl

/-! ## Blanks -/

/-- Between the items of a list or of an object stand a comma and blanks. -/
structure Layout.Blank (layout : Layout) : Prop where
  comma : ∃ blanks, layout.comma = ',' :: blanks ∧ ∀ c ∈ blanks, isBlank (.char c)
  lineBreak : ∀ depth, ∀ c ∈ layout.lineBreak depth, isBlank (.char c)

theorem blank_compact : Layout.compact.Blank where
  comma := ⟨[' '], rfl, fun c hc => by rw [List.mem_singleton.mp hc]; rfl⟩
  lineBreak := by nofun

theorem blank_indented : Layout.indented.Blank where
  comma := ⟨[], rfl, by nofun⟩
  lineBreak depth c hc := by
    rcases List.mem_cons.mp hc with rfl | hc
    · rfl
    · rw [List.eq_of_mem_replicate hc]
      rfl

theorem skipBlanks_blanks {blanks : List Char} (h : ∀ c ∈ blanks, isBlank (.char c))
    (s : List CodePoint) : skipBlanks (blanks.map .char ++ s) = skipBlanks s :=
  List.dropWhile_append_of_pos (by simpa using h)

theorem skipBlanks_cons {p : CodePoint} (h : isBlank p = false) (s : List CodePoint) :
    skipBlanks (p :: s) = p :: s :=
  List.dropWhile_cons_of_neg (by simp [h])

theorem delimits_nil : Delimits [] := by nofun

theorem delimits_cons {c : Char} (h : c ∈ [' ', '\t', '\n', '\r', ',', ']', '\x7d'])
    (s : List CodePoint) : Delimits (.char c :: s) := by
  intro p hp
  obtain rfl := Option.some.inj hp
  exact h

theorem delimits_blanks {blanks : List Char} (h : ∀ c ∈ blanks, isBlank (.char c))
    {s : List CodePoint} (hs : Delimits s) : Delimits (blanks.map .char ++ s) := by
  cases blanks with
  | nil => exact hs
  | cons c rest =>
    have hc : c ∈ [' ', '\t', '\n', '\r'] := List.contains_iff_mem.mp (h c List.mem_cons_self)
    exact delimits_cons (List.mem_append_left [',', ']', '\x7d'] hc) _

/-! ## Values -/

/-- A value that JSON has a text for: no double, only texts for keys, and no number with more digits
than a reader takes. -/
inductive Representable (most : Option Nat) : Value → Prop
  | null : Representable most .null
  | bool (b : Bool) : Representable most (.bool b)
  | int {n : Int} (digits : ∀ k ∈ most, (Nat.toDigits 10 n.natAbs).length ≤ k) :
      Representable most (.int n)
  | str {t : Text} (whole : t.Whole) : Representable most (.str t)
  | list {items : List Value} (each : ∀ v ∈ items, Representable most v) :
      Representable most (.list items)
  | dict {d : Dict} (distinct : d.Distinct) (keys : ∀ e ∈ d, ∃ t : Text, e.1 = .str t ∧ t.Whole)
      (each : ∀ e ∈ d, Representable most e.2) : Representable most (.dict d)

section

variable {most : Option Nat} {layout : Layout}

theorem Representable.string (s : String) : Representable most (.str s) :=
  .str (Text.whole_ofChars s.toList)

theorem Representable.record {fields : List (String × Value)} (nodup : (fields.map (·.1)).Nodup)
    (each : ∀ f ∈ fields, Representable most f.2) : Representable most (.record fields) := by
  refine .dict (Dict.distinct_ofFields nodup) (fun e he => ?_) (fun e he => ?_)
  · obtain ⟨f, -, rfl⟩ := List.mem_map.mp he
    exact ⟨_, rfl, Text.whole_ofChars f.1.toList⟩
  · obtain ⟨f, hf, rfl⟩ := List.mem_map.mp he
    exact each f hf

/-- A number begins with none of the characters that mean something else. -/
theorem exists_cons_toString (n : Int) : ∃ c rest, (toString n).toList = c :: rest ∧
    ∀ d ∈ [' ', '\t', '\n', '\r', ']', '"', '[', '\x7b'], c ≠ d := by
  have hne : ∀ c, c = '-' ∨ isDigit (.char c) →
      ∀ d ∈ [' ', '\t', '\n', '\r', ']', '"', '[', '\x7b'], c ≠ d := by
    rintro c hc d hd rfl
    simp only [List.mem_cons, List.not_mem_nil, or_false] at hd
    rcases hd with rfl | rfl | rfl | rfl | rfl | rfl | rfl | rfl <;>
      simp [isDigit, CodePoint.toChar] at hc
  have hsome : Nat.toDigits 10 n.natAbs ≠ [] := Nat.toDigits_ne_nil
  obtain ⟨d, ds, hdigits⟩ := List.exists_cons_of_ne_nil hsome
  rw [toList_toString]
  split
  · exact ⟨_, _, rfl, hne _ (.inl rfl)⟩
  · have hd : isDigit (.char d) := isDigit_of_mem_digits (n := n.natAbs) (by simp [hdigits])
    exact ⟨d, ds, hdigits, hne d (.inr hd)⟩

/-- The text of a value begins neither with a blank nor with a bracket that closes. -/
theorem Representable.exists_cons {v : Value} (h : Representable most v) (layout : Layout)
    (depth : Nat) : ∃ c rest,
      writeAt layout depth v = c :: rest ∧ isBlank (.char c) = false ∧ c ≠ ']' := by
  cases h with
  | null => exact ⟨'n', _, rfl, rfl, by decide⟩
  | bool b =>
    cases b with
    | false => exact ⟨'f', _, rfl, rfl, by decide⟩
    | true => exact ⟨'t', _, rfl, rfl, by decide⟩
  | @int n _ =>
    obtain ⟨c, rest, htext, hc⟩ := exists_cons_toString n
    refine ⟨c, rest, by rw [writeAt]; exact htext, ?_, hc ']' (by simp)⟩
    rw [isBlank, CodePoint.toChar, ← Bool.not_eq_true, List.contains_iff_mem]
    intro hblank
    exact hc c (List.mem_append_left [']', '"', '[', '\x7b'] hblank) rfl
  | str _ => exact ⟨'"', _, rfl, rfl, by decide⟩
  | @list items _ =>
    cases items with
    | nil => exact ⟨'[', _, rfl, rfl, by decide⟩
    | cons w rest => exact ⟨'[', _, rfl, rfl, by decide⟩
  | @dict d _ _ _ =>
    cases d with
    | nil => exact ⟨'\x7b', _, rfl, rfl, by decide⟩
    | cons e rest => exact ⟨'\x7b', _, rfl, rfl, by decide⟩

theorem Representable.skipBlanks_writeAt {v : Value} (h : Representable most v) (depth : Nat)
    (s : List CodePoint) : skipBlanks ((writeAt layout depth v).map .char ++ s)
      = (writeAt layout depth v).map .char ++ s := by
  obtain ⟨c, rest, htext, hc, -⟩ := h.exists_cons layout depth
  rw [htext, List.map_cons, List.cons_append, skipBlanks_cons hc]

theorem skipBlanks_writeString (t : Text) (s : List CodePoint) :
    skipBlanks ((writeString t).map .char ++ s) = (writeString t).map .char ++ s :=
  skipBlanks_cons rfl _

/-- What is written for a value, at any depth, is read back with twice as much fuel as it is
long. -/
def ReadsBack (most : Option Nat) (layout : Layout) (v : Value) : Prop :=
  ∀ depth fuel rest, 2 * (writeAt layout depth v).length ≤ fuel → Delimits rest →
    readValue most fuel ((writeAt layout depth v).map .char ++ rest) = .ok (v, rest)

/-- A word or a number is read back as a value. -/
theorem readsBack_atom {a : Scalar} {c : Char} {s : List Char} (htext : writeScalar a = c :: s)
    (hc : ∀ d ∈ ['"', '[', '\x7b'], c ≠ d) (hread : ∀ rest, Delimits rest →
      readAtom most ((writeScalar a).map .char ++ rest) = .ok (a, rest)) :
    ReadsBack most layout (.scalar a) := by
  intro depth fuel rest hfuel hrest
  have hatom := hread rest hrest
  have hne : ∀ d ∈ ['"', '[', '\x7b'], ∀ t,
      CodePoint.char c :: (s.map .char ++ rest) = .char d :: t → False :=
    fun d hd t heq => hc d hd (CodePoint.char.inj (List.cons.inj heq).1)
  rw [writeAt, htext] at hfuel ⊢
  rw [htext, List.map_cons, List.cons_append] at hatom
  cases fuel with
  | zero => cases hfuel
  | succ fuel =>
    rw [List.map_cons, List.cons_append, readValue, hatom]
    · rfl
    · exact hne '"' (by simp)
    · exact hne '[' (by simp)
    · exact hne '\x7b' (by simp)

theorem readsBack_null : ReadsBack most layout .null :=
  readsBack_atom (c := 'n') (s := ['u', 'l', 'l']) rfl (by simp) fun rest _ =>
    readAtom_null most rest

theorem readsBack_bool (b : Bool) : ReadsBack most layout (.bool b) := by
  have hread := fun rest (_ : Delimits rest) => readAtom_bool most b rest
  cases b with
  | false => exact readsBack_atom (c := 'f') (s := ['a', 'l', 's', 'e']) rfl (by simp) hread
  | true => exact readsBack_atom (c := 't') (s := ['r', 'u', 'e']) rfl (by simp) hread

theorem readsBack_int {n : Int} (h : ∀ k ∈ most, (Nat.toDigits 10 n.natAbs).length ≤ k) :
    ReadsBack most layout (.int n) := by
  obtain ⟨c, s, htext, hc⟩ := exists_cons_toString n
  have hlength : most.any (· < (Nat.toDigits 10 n.natAbs).length) = false := by
    cases most with
    | none => rfl
    | some k => simpa using h
  refine readsBack_atom htext (fun d hd => hc d ?_) fun rest hrest => readAtom_int hlength hrest
  exact List.mem_append_right [' ', '\t', '\n', '\r', ']'] hd

theorem readsBack_str {t : Text} (h : t.Whole) : ReadsBack most layout (.str t) := by
  intro depth fuel rest hfuel _
  have hwritten : writeAt layout depth (.str t) = writeString t := rfl
  have hlength := length_le_flatMap_escapePoint t.points
  rw [hwritten, writeString] at hfuel ⊢
  cases fuel with
  | zero => cases hfuel
  | succ fuel =>
    simp only [List.length_append, List.length_cons] at hfuel
    have hread := readString_points t.points fuel rest h (by omega)
    simp [readValue, hread, wellFormed]

/-- A list is read item by item. -/
theorem readItems_back (hlayout : layout.Blank) {close : List Char}
    (hclose : ∀ c ∈ close, isBlank (.char c)) (depth : Nat) (rest : List CodePoint) :
    ∀ (items : List Value) (v : Value) (fuel : Nat),
    (∀ w ∈ v :: items, Representable most w ∧ ReadsBack most layout w) →
    2 * ((writeAt layout depth v).length + (writeItems layout depth items).length) + 1 ≤ fuel →
    readItems most fuel ((writeAt layout depth v).map .char
      ++ ((writeItems layout depth items).map .char ++ (close.map .char ++ .char ']' :: rest)))
        = .ok (v :: items, rest)
  | [], v, fuel + 1, heach, hfuel => by
      have hbracket : isBlank (.char ']') = false := rfl
      have hv := (heach v List.mem_cons_self).2 depth fuel (close.map .char ++ .char ']' :: rest)
        (by omega) (delimits_blanks hclose (delimits_cons (by simp) rest))
      rw [writeItems, List.map_nil, List.nil_append, readItems, hv, ok_bind]
      simp only [skipBlanks_blanks hclose, skipBlanks_cons hbracket]
      rfl
  | w :: items, v, fuel + 1, heach, hfuel => by
      have hcommaBlank : isBlank (.char ',') = false := rfl
      obtain ⟨hv, hmore⟩ := List.forall_mem_cons.mp heach
      obtain ⟨blanks, hcomma, hblanks⟩ := hlayout.comma
      have hw := (hmore w List.mem_cons_self).1
      simp only [writeItems, hcomma, List.length_append, List.length_cons] at hfuel
      have hitems := readItems_back hlayout hclose depth rest items w fuel hmore (by omega)
      simp only [writeItems, hcomma, List.map_append, List.map_cons, List.append_assoc,
        List.cons_append]
      rw [readItems, hv.2 depth fuel _ (by omega) (delimits_cons (by simp) _), ok_bind]
      simp only [skipBlanks_cons hcommaBlank, skipBlanks_blanks hblanks,
        skipBlanks_blanks (hlayout.lineBreak depth), hw.skipBlanks_writeAt, hitems, ok_bind]
      rfl

theorem readsBack_list (hlayout : layout.Blank) {items : List Value}
    (heach : ∀ v ∈ items, Representable most v ∧ ReadsBack most layout v) :
    ReadsBack most layout (.list items) := by
  intro depth fuel rest hfuel _
  cases items with
  | nil =>
    cases fuel with
    | zero => cases hfuel
    | succ fuel => rfl
  | cons v items =>
    rw [writeAt] at hfuel ⊢
    simp only [List.length_append, List.length_cons] at hfuel
    cases fuel with
    | zero => cases hfuel
    | succ fuel =>
      have hitems := readItems_back hlayout (hlayout.lineBreak depth) (depth + 1) rest items v fuel
        heach (by omega)
      have hv := (heach v List.mem_cons_self).1
      obtain ⟨c, s, htext, -, hc⟩ := hv.exists_cons layout (depth + 1)
      simp only [List.map_append, List.map_cons, List.map_nil, List.append_assoc,
        List.cons_append, List.nil_append]
      rw [readValue]
      simp only [skipBlanks_blanks (hlayout.lineBreak (depth + 1)), hv.skipBlanks_writeAt]
      split
      · rename_i heq
        rw [htext] at heq
        exact absurd (CodePoint.char.inj (List.cons.inj heq).1) hc
      · rw [hitems, ok_bind]
        rfl

/-- What is read behind an entry. -/
def readBehind (most : Option Nat) (fuel : Nat) (entry : Scalar × Value) :
    List CodePoint → Except Fault (Dict × List CodePoint)
  | .char ',' :: rest => do
    let (entries, rest) ← readEntries most fuel (skipBlanks rest)
    return (entry :: entries, rest)
  | .char '\x7d' :: rest => return ([entry], rest)
  | _ => .error .malformedJson

/-- An entry is read up to the comma or the brace behind it. -/
theorem readEntries_entry {t : Text} {v : Value} {fuel depth : Nat} {tail : List CodePoint}
    (ht : t.Whole) (hv : Representable most v ∧ ReadsBack most layout v)
    (hfuel : 2 * ((writeString t).length + (writeAt layout depth v).length) ≤ fuel + 1)
    (htail : Delimits tail) :
    readEntries most (fuel + 1) ((writeString t).map .char
      ++ (.char ':' :: .char ' ' :: ((writeAt layout depth v).map .char ++ tail)))
        = readBehind most fuel (.str t, v) (skipBlanks tail) := by
  have hcolon : isBlank (.char ':') = false := rfl
  have hspace : ∀ s, skipBlanks (.char ' ' :: s) = skipBlanks s := fun s => rfl
  have hlength := length_le_flatMap_escapePoint t.points
  simp only [writeString, List.length_append, List.length_cons] at hfuel
  have hkey := readString_points t.points fuel
    (.char ':' :: .char ' ' :: ((writeAt layout depth v).map .char ++ tail)) ht (by omega)
  have hvalue := hv.2 depth fuel tail (by omega) htail
  simp only [writeString, List.map_append, List.map_cons, List.map_nil, List.append_assoc,
    List.cons_append, List.nil_append]
  rw [readEntries, hkey]
  simp only [wellFormed, ok_bind, skipBlanks_cons hcolon, hspace, hv.1.skipBlanks_writeAt, hvalue]
  rfl

/-- An object is read entry by entry. -/
theorem readEntries_back (hlayout : layout.Blank) {close : List Char}
    (hclose : ∀ c ∈ close, isBlank (.char c)) (depth : Nat) (rest : List CodePoint) :
    ∀ (entries : Dict) (t : Text) (v : Value) (fuel : Nat), t.Whole →
    Representable most v ∧ ReadsBack most layout v →
    (∀ e ∈ entries, (∃ t : Text, e.1 = .str t ∧ t.Whole) ∧ Representable most e.2 ∧
      ReadsBack most layout e.2) →
    2 * ((writeString t).length + (writeAt layout depth v).length
      + (writeEntries layout depth entries).length) + 1 ≤ fuel →
    readEntries most fuel ((writeString t).map .char
      ++ (.char ':' :: .char ' ' :: ((writeAt layout depth v).map .char
        ++ ((writeEntries layout depth entries).map .char
          ++ (close.map .char ++ .char '\x7d' :: rest)))))
        = .ok ((.str t, v) :: entries, rest)
  | [], t, v, fuel + 1, ht, hv, _, hfuel => by
      have hbrace : isBlank (.char '\x7d') = false := rfl
      have hrest : Delimits (.char '\x7d' :: rest) := delimits_cons (by simp) rest
      rw [writeEntries, List.map_nil, List.nil_append, readEntries_entry ht hv (by omega)
        (delimits_blanks hclose hrest), skipBlanks_blanks hclose, skipBlanks_cons hbrace]
      rfl
  | (k, w) :: entries, t, v, fuel + 1, ht, hv, heach, hfuel => by
      have hcommaBlank : isBlank (.char ',') = false := rfl
      obtain ⟨⟨⟨u, hk, hu⟩, hw⟩, hmore⟩ := List.forall_mem_cons.mp heach
      simp only at hk
      subst hk
      obtain ⟨blanks, hcomma, hblanks⟩ := hlayout.comma
      have hkey : writeKey (.str u) = writeString u := rfl
      simp only [writeEntries, hcomma, hkey, List.length_append, List.length_cons] at hfuel
      have hentries := readEntries_back hlayout hclose depth rest entries u w fuel hu hw hmore
        (by omega)
      simp only [writeEntries, hcomma, hkey, List.map_append, List.map_cons, List.append_assoc,
        List.cons_append]
      rw [readEntries_entry ht hv (by omega) (delimits_cons (by simp) _),
        skipBlanks_cons hcommaBlank, readBehind]
      simp only [skipBlanks_blanks hblanks, skipBlanks_blanks (hlayout.lineBreak depth),
        skipBlanks_writeString, hentries, ok_bind]
      rfl

theorem readsBack_dict (hlayout : layout.Blank) {d : Dict} (hdistinct : d.Distinct)
    (heach : ∀ e ∈ d, (∃ t : Text, e.1 = .str t ∧ t.Whole) ∧ Representable most e.2 ∧
      ReadsBack most layout e.2) : ReadsBack most layout (.dict d) := by
  intro depth fuel rest hfuel _
  cases d with
  | nil =>
    cases fuel with
    | zero => cases hfuel
    | succ fuel => rfl
  | cons e entries =>
    obtain ⟨k, v⟩ := e
    obtain ⟨⟨⟨t, hk, ht⟩, hv⟩, hmore⟩ := List.forall_mem_cons.mp heach
    simp only at hk hv
    subst hk
    have hkey : writeKey (.str t) = writeString t := rfl
    rw [writeAt, hkey] at hfuel ⊢
    simp only [List.length_append, List.length_cons] at hfuel
    cases fuel with
    | zero => cases hfuel
    | succ fuel =>
      have hentries := readEntries_back hlayout (hlayout.lineBreak depth) (depth + 1) rest entries
        t v fuel ht hv hmore (by omega)
      simp only [List.map_append, List.map_cons, List.map_nil, List.append_assoc,
        List.cons_append, List.nil_append]
      rw [readValue]
      simp only [skipBlanks_blanks (hlayout.lineBreak (depth + 1)), skipBlanks_writeString]
      rw [writeString] at hentries ⊢
      split
      · rename_i heq
        exact absurd (CodePoint.char.inj (List.cons.inj heq).1) (by decide)
      · rw [hentries, ok_bind]
        simp only [Dict.ofPairs_of_distinct hdistinct]
        rfl

/-- **What is written for a value is read back**, whatever stands behind it. -/
theorem readsBack (hlayout : layout.Blank) {v : Value} (h : Representable most v) :
    ReadsBack most layout v := by
  induction h with
  | null => exact readsBack_null
  | bool b => exact readsBack_bool b
  | int digits => exact readsBack_int digits
  | str whole => exact readsBack_str whole
  | list each ih => exact readsBack_list hlayout fun v hv => ⟨each v hv, ih v hv⟩
  | dict distinct keys each ih =>
    exact readsBack_dict hlayout distinct fun e he => ⟨keys e he, each e he, ih e he⟩

theorem parseWithin_writeAt (hlayout : layout.Blank) {v : Value} (h : Representable most v)
    {blanks : List Char} (hblanks : ∀ c ∈ blanks, isBlank (.char c)) :
    parseWithin most (.ofChars (writeAt layout 0 v ++ blanks)) = .ok v := by
  have hnone := skipBlanks_blanks hblanks []
  have hdelimits := delimits_blanks hblanks delimits_nil
  rw [List.append_nil] at hnone hdelimits
  have hread := readsBack hlayout h 0
    (2 * ((writeAt layout 0 v).map CodePoint.char ++ blanks.map CodePoint.char).length + 2)
    (blanks.map .char) (by simp; omega) hdelimits
  rw [parseWithin, Text.ofChars, List.map_append]
  simp only [h.skipBlanks_writeAt, hread, ok_bind, hnone]
  rfl

theorem parseWithin_text (hlayout : layout.Blank) {v : Value} (h : Representable most v) :
    parseWithin most (text layout v) = .ok v := by
  have hparse := parseWithin_writeAt hlayout h (List.forall_mem_nil _)
  rwa [List.append_nil, ← Text.ofString_ofList] at hparse

/-- **A value is read back from the line that shows it.** -/
theorem parseWithin_line (hlayout : layout.Blank) {v : Value} (h : Representable most v) :
    parseWithin most (text layout v ++ "\n" : String) = .ok v := by
  have hline : (text layout v ++ "\n" : String) = String.ofList (writeAt layout 0 v ++ ['\n']) :=
    (String.ofList_append ..).symm
  have hbreak : ∀ c ∈ ['\n'], isBlank (.char c) := fun c hc => by
    rw [List.mem_singleton.mp hc]
    rfl
  rw [hline, Text.ofString_ofList]
  exact parseWithin_writeAt hlayout h hbreak

end

/-! ## What is written at all -/

/-- The reader takes every number that can be written. -/
def TakesWritten (most : Option Nat) : Prop := ∀ k ∈ most, Integer.mostDigits ≤ k

section

variable {v : Value}

theorem Representable.mono {most most' : Option Nat} (h : Representable most v)
    (hmost : ∀ k' ∈ most', ∃ k ∈ most, k ≤ k') : Representable most' v := by
  induction h with
  | null => exact .null
  | bool b => exact .bool b
  | int digits =>
    refine .int fun k' hk' => ?_
    obtain ⟨k, hk, hle⟩ := hmost k' hk'
    exact Nat.le_trans (digits k hk) hle
  | str whole => exact .str whole
  | list _ ih => exact .list ih
  | dict distinct keys _ ih => exact .dict distinct keys ih

/-- **A value is written when its numbers are short enough.** -/
theorem representable_iff_carried (h : Representable none v) :
    Representable (some Integer.mostDigits) v ↔ Carried v := by
  induction h with
  | null => exact iff_of_true .null carried_null
  | bool b => exact iff_of_true (.bool b) (carried_bool b)
  | @int n =>
    rw [carried_int, Integer.exceeds_eq_false_iff]
    constructor
    · intro hint
      cases hint with
      | int digits => exact digits _ rfl
    · exact fun hlength => .int (by simpa using hlength)
  | str whole => exact iff_of_true (.str whole) (carried_str _)
  | list _ ih =>
    rw [carried_list]
    constructor
    · intro hlist
      cases hlist with
      | list each => exact fun w hw => (ih w hw).mp (each w hw)
    · exact fun hcarried => .list fun w hw => (ih w hw).mpr (hcarried w hw)
  | dict distinct keys _ ih =>
    rw [carried_dict]
    constructor
    · intro hdict
      cases hdict with
      | dict _ _ each =>
        intro e he
        obtain ⟨t, ht, -⟩ := keys e he
        exact ⟨ht ▸ carried_str t, (ih e he).mp (each e he)⟩
    · exact fun hcarried => .dict distinct keys fun e he => (ih e he).mpr (hcarried e he).2

/-- A reader takes what is written. -/
theorem Representable.of_carried {most : Option Nat} (h : Representable none v) (hv : Carried v)
    (hmost : TakesWritten most) : Representable most v :=
  ((representable_iff_carried h).mpr hv).mono fun k hk => ⟨_, rfl, hmost k hk⟩

/-- Nothing but a long number stands against writing such a value. -/
theorem Representable.eq_unwritable {f : Fault} (h : Representable none v)
    (hf : refusal? v = some f) : f = .unwritable := by
  induction h generalizing f with
  | null | bool | str => cases hf
  | int =>
    rw [refusal?, scalarRefusal?] at hf
    split at hf
    · exact (Option.some.inj hf).symm
    · cases hf
  | list _ ih =>
    obtain ⟨v, hv, hf⟩ := exists_refusal?_of_list hf
    exact ih v hv hf
  | dict _ keys _ ih =>
    obtain ⟨e, he, hk | hv⟩ := exists_refusal?_of_dict hf
    · obtain ⟨t, ht, -⟩ := keys e he
      rw [ht] at hk
      cases hk
    · exact ih e he hv

theorem Representable.write_eq_error {layout : Layout} (h : Representable none v)
    (hv : ¬Carried v) : write layout v = .error .unwritable := by
  obtain ⟨f, hf⟩ := Option.ne_none_iff_exists'.mp hv
  rw [write, check, hf, h.eq_unwritable hf]
  rfl

end

end CellNft.Json
