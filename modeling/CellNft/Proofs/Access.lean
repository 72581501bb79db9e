/-
CellNft.Proofs.Access — taking values apart, and reading what was written.

A dictionary is an association list that may hold keys of other kinds beside texts. Writing under a
text changes what is read under that text (`item_set_self`) and under no other (`item_set_ne`), and
of two writings under one text the later counts (`set_set`).
-/
import CellNft.Value.Access
import CellNft.Proofs.Outcome

namespace CellNft

open Outcome

namespace Text

theorem ofString_injective {s t : String} (h : ofString s = ofString t) : s = t := by
  have hmap : s.toList.map CodePoint.char = t.toList.map CodePoint.char := congrArg points h
  have hlist := List.map_inj_right (fun _ _ => CodePoint.char.inj) |>.mp hmap
  exact String.toList_injective hlist

@[simp] theorem ofString_inj {s t : String} : ofString s = ofString t ↔ s = t :=
  ⟨ofString_injective, fun h => by rw [h]⟩

end Text

namespace Scalar

/-- A scalar is the same key as a text only if it is that text. -/
theorem same_str (k : Scalar) (t : Text) : k.same (.str t) = decide (k = .str t) := by
  cases k <;> simp [same, number?]

theorem str_same (t : Text) (k : Scalar) : (str t).same k = decide (.str t = k) := by
  cases k <;> simp [same, number?]

end Scalar

namespace Dict

theorem find?_set_self (d : Dict) (t : Text) (w : Value) :
    (d.set (.str t) w).find? (.str t) = some w := by
  induction d with
  | nil => simp [set, find?, Scalar.same_str]
  | cons e rest ih =>
    rw [set]
    split
    · rename_i hsame
      simp [find?, hsame]
    · rename_i hsame
      simp only [find?, List.find?_cons, hsame] at ih ⊢
      exact ih

theorem find?_set_of_ne (d : Dict) {k : Scalar} {t : Text} (h : k ≠ .str t) (w : Value) :
    (d.set (.str t) w).find? k = d.find? k := by
  induction d with
  | nil => simp [set, find?, Scalar.str_same, h.symm]
  | cons e rest ih =>
    rw [set]
    split
    · rename_i hsame
      rw [Scalar.same_str, decide_eq_true_eq] at hsame
      simp [find?, hsame, Scalar.str_same, h.symm]
    · simp only [find?, List.find?_cons] at ih ⊢
      split
      · rfl
      · exact ih

theorem find?_set_ne (d : Dict) {t u : Text} (h : t ≠ u) (w : Value) :
    (d.set (.str u) w).find? (.str t) = d.find? (.str t) :=
  find?_set_of_ne d (fun heq => h (Scalar.str.inj heq)) w

/-- Writing under a key that is there leaves the keys as they are. -/
theorem keys_set_of_find? {d : Dict} {t : Text} {v : Value} (h : d.find? (.str t) = some v)
    (w : Value) : (d.set (.str t) w).map (·.1) = d.map (·.1) := by
  induction d with
  | nil => cases h
  | cons e rest ih =>
    by_cases hsame : e.1.same (.str t)
    · simp [set, hsame]
    · simp only [find?, List.find?_cons, hsame] at h
      simp only [set, hsame, Bool.false_eq_true, if_false, List.map_cons, ih h]

theorem set_set (d : Dict) (t : Text) (v w : Value) :
    (d.set (.str t) v).set (.str t) w = d.set (.str t) w := by
  induction d with
  | nil => simp [set, Scalar.same_str]
  | cons e rest ih =>
    by_cases hsame : e.1.same (.str t)
    · simp [set, hsame]
    · simp [set, hsame, ih]

/-- Writing what is there changes nothing. -/
theorem set_of_find? {d : Dict} {t : Text} {v : Value} (h : d.find? (.str t) = some v) :
    d.set (.str t) v = d := by
  induction d with
  | nil => cases h
  | cons e rest ih =>
    by_cases hsame : e.1.same (.str t)
    · simp only [find?, List.find?_cons, hsame, Option.map_some, Option.some.injEq] at h
      simp [set, hsame, ← h]
    · simp only [find?, List.find?_cons, hsame] at h
      simp only [set, hsame, Bool.false_eq_true, if_false, ih h]

/-- What is found is the value of an entry. -/
theorem exists_mem_of_find? {d : Dict} {k : Scalar} {v : Value} (h : d.find? k = some v) :
    ∃ e ∈ d, e.1.same k ∧ e.2 = v := by
  obtain ⟨e, he, hvalue⟩ := Option.map_eq_some_iff.mp h
  have hsame := List.find?_some he
  exact ⟨e, List.mem_of_find?_eq_some he, hsame, hvalue⟩

theorem mem_of_find?_str {d : Dict} {t : Text} {v : Value} (h : d.find? (.str t) = some v) :
    (.str t, v) ∈ d := by
  obtain ⟨⟨k, w⟩, hmem, hsame, rfl⟩ := exists_mem_of_find? h
  rw [Scalar.same_str, decide_eq_true_eq] at hsame
  exact hsame ▸ hmem

/-- An entry of a written dictionary was there, or it has the value that was written under a key
that is the same. -/
theorem mem_set {d : Dict} {k : Scalar} {v : Value} {e : Scalar × Value} (h : e ∈ d.set k v) :
    e ∈ d ∨ e.2 = v ∧ (e.1 = k ∨ e.1.same k ∧ ∃ e' ∈ d, e'.1 = e.1) := by
  induction d with
  | nil =>
    obtain rfl := List.mem_singleton.mp h
    exact .inr ⟨rfl, .inl rfl⟩
  | cons f rest ih =>
    rw [set] at h
    split at h
    · rename_i hsame
      rcases List.mem_cons.mp h with rfl | h
      · exact .inr ⟨rfl, .inr ⟨hsame, f, List.mem_cons_self, rfl⟩⟩
      · exact .inl (List.mem_cons_of_mem _ h)
    · rcases List.mem_cons.mp h with rfl | h
      · exact .inl List.mem_cons_self
      · rcases ih h with h | ⟨hvalue, hkey | ⟨hsame, e', he', hkey⟩⟩
        · exact .inl (List.mem_cons_of_mem _ h)
        · exact .inr ⟨hvalue, .inl hkey⟩
        · exact .inr ⟨hvalue, .inr ⟨hsame, e', List.mem_cons_of_mem _ he', hkey⟩⟩

/-- What the dictionary of pairs holds is the value of a pair with the same key. -/
theorem exists_mem_of_mem_ofPairs {pairs : Dict} {e : Scalar × Value} (h : e ∈ ofPairs pairs) :
    ∃ e' ∈ pairs, e'.2 = e.2 ∧ (e.1 = e'.1 ∨ e.1.same e'.1) := by
  have hfold : ∀ pairs acc : Dict, e ∈ pairs.foldl (fun d e => d.set e.1 e.2) acc →
      e ∈ acc ∨ ∃ e' ∈ pairs, e'.2 = e.2 ∧ (e.1 = e'.1 ∨ e.1.same e'.1) := by
    intro pairs
    induction pairs with
    | nil => intro acc h; exact .inl h
    | cons f rest ih =>
      intro acc h
      rcases ih _ h with hacc | ⟨e', he', hentry⟩
      · rcases mem_set hacc with hmem | ⟨hvalue, hkey⟩
        · exact .inl hmem
        · exact .inr ⟨f, List.mem_cons_self, hvalue.symm, hkey.imp_right And.left⟩
      · exact .inr ⟨e', List.mem_cons_of_mem _ he', hentry⟩
  simpa using hfold pairs [] h

/-- A text is looked up in the dictionary of pairs among the pairs. -/
theorem mem_of_find?_ofPairs {pairs : Dict} {t : Text} {v : Value}
    (h : (ofPairs pairs).find? (.str t) = some v) : (.str t, v) ∈ pairs := by
  obtain ⟨⟨k, w⟩, hmem, rfl, hkey⟩ := exists_mem_of_mem_ofPairs (mem_of_find?_str h)
  rw [Scalar.str_same, decide_eq_true_eq, or_self] at hkey
  obtain rfl : .str t = k := hkey
  exact hmem

theorem find?_ofFields (fields : List (String × Value)) (key : String) :
    (ofFields fields).find? (.str key) = (fields.find? fun f => f.1 = key).map (·.2) := by
  simp [find?, ofFields, List.find?_map, Function.comp_def, Scalar.same_str]

/-! ### No key twice -/

/-- No key stands before the same key. -/
def Distinct (d : Dict) : Prop := d.Pairwise fun e e' => e.1.same e'.1 = false

instance (d : Dict) : Decidable d.Distinct := inferInstanceAs (Decidable (List.Pairwise _ _))

theorem distinct_of_keys {d : Dict} {ts : List Text} (h : d.map (·.1) = ts.map .str)
    (nodup : ts.Nodup) : d.Distinct := by
  have hkeys : (d.map (·.1)).Pairwise fun k k' => k.same k' = false := by
    rw [h]
    refine List.pairwise_map.mpr (nodup.imp fun hne => ?_)
    simpa [Scalar.same_str] using hne
  exact List.pairwise_map.mp hkeys

theorem distinct_ofFields {fields : List (String × Value)} (nodup : (fields.map (·.1)).Nodup) :
    (ofFields fields).Distinct := by
  have htexts : ((fields.map (·.1)).map Text.ofString).Nodup :=
    List.pairwise_map.mpr (nodup.imp fun hne heq => hne (Text.ofString_injective heq))
  exact distinct_of_keys (by simp [ofFields]) htexts

/-- Where no key stands twice, every entry is found. -/
theorem Distinct.find?_of_mem {d : Dict} {t : Text} {v : Value} (h : d.Distinct)
    (hmem : (.str t, v) ∈ d) : d.find? (.str t) = some v := by
  induction d with
  | nil => cases hmem
  | cons e rest ih =>
    obtain ⟨hfirst, hrest⟩ := List.pairwise_cons.mp h
    rcases List.mem_cons.mp hmem with rfl | hmem
    · simp [find?, Scalar.same_str]
    · have hne : e.1.same (.str t) = false := hfirst _ hmem
      have hfind := ih hrest hmem
      rw [find?] at hfind ⊢
      rw [List.find?_cons_of_neg (by simp [hne]), hfind]

theorem Distinct.set {d : Dict} (h : d.Distinct) (k : Scalar) (v : Value) :
    (d.set k v).Distinct := by
  induction d with
  | nil => exact List.pairwise_singleton _ _
  | cons e rest ih =>
    obtain ⟨hfirst, hrest⟩ := List.pairwise_cons.mp h
    rw [Dict.set]
    split
    · exact List.pairwise_cons.mpr ⟨hfirst, hrest⟩
    · rename_i hsame
      refine List.pairwise_cons.mpr ⟨?_, ih hrest⟩
      intro e' he'
      rcases mem_set he' with hmem | ⟨-, hkey | ⟨-, f, hf, hkey⟩⟩
      · exact hfirst e' hmem
      · rw [hkey]
        simpa using hsame
      · rw [← hkey]
        exact hfirst f hf

theorem distinct_ofPairs (pairs : Dict) : (ofPairs pairs).Distinct := by
  have hfold : ∀ (pairs acc : Dict), acc.Distinct →
      (pairs.foldl (fun d e => d.set e.1 e.2) acc).Distinct := by
    intro pairs
    induction pairs with
    | nil => intro acc h; exact h
    | cons e rest ih => intro acc h; exact ih _ (h.set e.1 e.2)
  exact hfold pairs [] List.Pairwise.nil

theorem set_of_not_same {d : Dict} {k : Scalar} (h : ∀ e ∈ d, e.1.same k = false) (v : Value) :
    d.set k v = d ++ [(k, v)] := by
  induction d with
  | nil => rfl
  | cons e rest ih =>
    have hfirst := h e List.mem_cons_self
    rw [set, hfirst, ih fun e' he' => h e' (List.mem_cons_of_mem _ he')]
    rfl

/-- Pairs without a repeated key are the dictionary of themselves. -/
theorem ofPairs_of_distinct {d : Dict} (h : d.Distinct) : ofPairs d = d := by
  have hfold : ∀ pairs acc : Dict, (acc ++ pairs : Dict).Distinct →
      pairs.foldl (fun d e => d.set e.1 e.2) acc = acc ++ pairs := by
    intro pairs
    induction pairs with
    | nil => intro acc _; simp
    | cons e rest ih =>
      intro acc h
      have hnew : ∀ e' ∈ acc, e'.1.same e.1 = false := by
        intro e' he'
        exact (List.pairwise_append.mp h).2.2 e' he' e List.mem_cons_self
      rw [List.foldl_cons, set_of_not_same hnew, ih]
      · simp
      · simpa using h
  exact hfold d [] h

end Dict

namespace Value

theorem item_dict {d : Dict} {key : String} {w : Value} :
    (dict d).item key = .ok w ↔ d.find? (.str key) = some w := by
  rw [item]
  cases d.find? (.str key) <;> simp

theorem item_record {fields : List (String × Value)} {key : String} {w : Value} :
    (record fields).item key = .ok w
      ↔ (fields.find? fun f => f.1 = key).map (·.2) = some w := by
  rw [record, item_dict, Dict.find?_ofFields]

/-- A field of a record is found if no key stands twice. -/
theorem item_record_of_mem {fields : List (String × Value)} {key : String} {w : Value}
    (nodup : (fields.map (·.1)).Nodup) (h : (key, w) ∈ fields) :
    (record fields).item key = .ok w := by
  rw [item_record]
  induction fields with
  | nil => cases h
  | cons field rest ih =>
    obtain ⟨hnew, hrest⟩ := List.nodup_cons.mp nodup
    rcases List.mem_cons.mp h with rfl | h
    · simp
    · have hne : field.1 ≠ key := fun heq => hnew (List.mem_map.mpr ⟨_, h, heq.symm⟩)
      rw [List.find?_cons_of_neg (by simpa using hne), ih hrest h]

theorem elements_list (items : List Value) : (list items).elements = .ok items := rfl

theorem eq_str_of_text {v : Value} {t : Text} (h : v.text = .ok t) : v = .str t := by
  cases v with
  | scalar s => cases s <;> first | exact congrArg str (Except.ok.inj h) | cases h
  | _ => cases h

/-- Only a text is the same as a text. -/
theorem eq_str_of_same {v : Value} {t : Text} (h : v.same (.str t)) : v = .str t := by
  cases v with
  | scalar s =>
    rw [same, Scalar.same_str, decide_eq_true_eq] at h
    rw [h]
  | _ => simp [same] at h

/-- Only a dictionary has entries. -/
theorem eq_dict_of_entries {v : Value} {d : Dict} (h : v.entries = .ok d) : v = .dict d := by
  cases v with
  | dict d' => exact congrArg dict (Except.ok.inj h)
  | _ => cases h

/-- Only a dictionary has items. -/
theorem exists_dict_of_item {v w : Value} {key : String} (h : v.item key = .ok w) :
    ∃ d : Dict, v = .dict d ∧ d.find? (.str key) = some w := by
  cases v with
  | dict d => exact ⟨d, rfl, item_dict.mp h⟩
  | _ => simp [item] at h

/-- A field that is not null is an item. -/
theorem item_of_field {v w : Value} {key : String} (h : v.field key = .ok w) (hw : w ≠ null) :
    v.item key = .ok w := by
  cases v with
  | dict d =>
    rw [field] at h
    rw [item_dict]
    cases hfind : Dict.find? d (.str key) with
    | none =>
      rw [hfind] at h
      exact absurd (Except.ok.inj h).symm hw
    | some u =>
      rw [hfind] at h
      exact congrArg some (Except.ok.inj h)
  | _ => cases h

theorem item_set_self (d : Dict) (key : String) (w : Value) :
    (dict (d.set (.str key) w)).item key = .ok w :=
  item_dict.mpr (Dict.find?_set_self d key w)

theorem item_set_ne (d : Dict) {key other : String} (h : key ≠ other) (w : Value) :
    (dict (d.set (.str other) w)).item key = (dict d).item key := by
  rw [item, item, Dict.find?_set_ne d (mt Text.ofString_injective h)]

/-- The value of an entry that is given as a pair is a part of that pair. -/
theorem exists_part_of_entriesFrom : ∀ {vs : List Value} {index : Nat} {pairs : Dict},
    entriesFrom index vs = .ok pairs →
    ∀ e ∈ pairs, ∃ v ∈ vs, ∃ parts, v.elements = .ok parts ∧ e.2 ∈ parts
  | [], _, _, h => by
      obtain rfl := Except.ok.inj h
      intro e he
      cases he
  | v :: rest, index, pairs, h => by
      obtain ⟨first, hfirst, h⟩ := bind_eq_ok.mp h
      obtain ⟨others, hothers, h⟩ := bind_eq_ok.mp h
      obtain rfl := Except.ok.inj h
      intro e he
      rcases List.mem_cons.mp he with rfl | he
      · obtain ⟨parts, hparts, hentry⟩ := bind_eq_ok.mp hfirst
        refine ⟨v, List.mem_cons_self, parts, hparts, ?_⟩
        split at hentry
        · obtain rfl := Except.ok.inj hentry
          simp
        · cases hentry
        · cases hentry
      · obtain ⟨w, hw, hparts⟩ := exists_part_of_entriesFrom hothers e he
        exact ⟨w, List.mem_cons_of_mem _ hw, hparts⟩

/-- What is selected from a dictionary is the value of an entry. -/
theorem exists_mem_of_select {d : Dict} {key v : Value} (h : (dict d).select key = .ok v) :
    ∃ e ∈ d, e.2 = v := by
  cases key with
  | scalar s =>
    rw [select] at h
    split at h
    · rename_i w hfind
      obtain ⟨e, he, -, rfl⟩ := Dict.exists_mem_of_find? hfind
      exact ⟨e, he, Except.ok.inj h⟩
    · cases h
  | _ => cases h

theorem elements_of_sequence {v : Value} {parts : List Value} (h : v.sequence? = some parts) :
    v.elements = .ok parts := by
  cases v with
  | dict d => cases h
  | set members => cases h
  | _ => simp [elements, h]

/-- The first item is what a dictionary has under zero, or a part of a sequence. -/
theorem first_cases {v w : Value} (h : v.first = .ok w) :
    (∃ d : Dict, v = .dict d ∧ d.find? (.int 0) = some w) ∨
      ∃ parts, v.elements = .ok parts ∧ w ∈ parts := by
  unfold first select at h
  split at h
  · rename_i d s hkey
    obtain rfl := Value.scalar.inj hkey
    split at h
    · rename_i u hu
      exact .inl ⟨d, rfl, Except.ok.inj h ▸ hu⟩
    · cases h
  · split at h
    · rename_i parts i hparts _
      split at h
      · rename_i u hu
        obtain rfl := Except.ok.inj h
        obtain ⟨j, -, hj⟩ := Option.bind_eq_some_iff.mp hu
        exact .inr ⟨parts, elements_of_sequence hparts, List.mem_of_getElem? hj⟩
      · cases h
    · cases h

theorem first_cons (v : Value) (rest : List Value) : (Value.list (v :: rest)).first = .ok v := by
  simp [first, select, sequence?, index?, place?]

/-- A sequence with a first part consists of that part and the rest. -/
theorem elements_eq_cons {v head : Value} {tail : List Value} (hhead : v.first = .ok head)
    (htail : v.rest = .ok tail) : v.elements = .ok (head :: tail) := by
  have hparts : ∃ parts, v.sequence? = some parts ∧ tail = parts.drop 1 := by
    cases v with
    | list items => exact ⟨items, rfl, (Except.ok.inj htail).symm⟩
    | scalar s =>
      cases s with
      | str t =>
        refine ⟨_, rfl, ?_⟩
        rw [← List.map_drop]
        exact (Except.ok.inj htail).symm
      | _ => cases htail
    | _ => cases htail
  obtain ⟨parts, hsequence, rfl⟩ := hparts
  cases parts with
  | nil =>
    cases v with
    | dict d => cases hsequence
    | _ => simp [first, select, hsequence, index?, place?] at hhead
  | cons part parts =>
    obtain rfl : part = head := by
      cases v with
      | dict d => cases hsequence
      | _ => simpa [first, select, hsequence, index?, place?] using hhead
    exact elements_of_sequence hsequence

theorem length_of_rest {v head : Value} {tail : List Value} (hhead : v.first = .ok head)
    (htail : v.rest = .ok tail) : v.length = .ok (tail.length + 1) := by
  rw [length, elements_eq_cons hhead htail]
  rfl

end Value
end CellNft
