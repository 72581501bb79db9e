/-
CellNft.Proofs.Carried — which values have a JSON text.

* JSON has a text for a value when it has one for every key and every part of it
  (`carried_list`, `carried_dict`), so taking a value apart and converting its keys keeps this.
* What JSON carries can be named in a message (`Carried.isWritable`).
* What was read from a text has a text again (`carried_of_parse`). The one reason against it would
  be a whole number that is too long, and such a number is not read.

So what a server replies can be named and can be sent on, whatever it is.
-/
import CellNft.KeyCase
import CellNft.Json.Reader
import CellNft.Json.Writer
import CellNft.Proofs.Access

namespace CellNft

open Outcome

/-! ## Long numbers -/

namespace Integer

theorem pow_ten_le {a b : Nat} (h : a ≤ b) : Nat.pow 10 a ≤ Nat.pow 10 b :=
  Nat.pow_le_pow_right (by decide) h

/-- A number with few digits has a text. -/
theorem exceeds_eq_false {n : Int} {k : Nat} (hn : n.natAbs < Nat.pow 10 k)
    (hk : k ≤ mostDigits) : exceeds n = false :=
  decide_eq_false (Nat.not_le.mpr (Nat.lt_of_lt_of_le hn (pow_ten_le hk)))

@[simp] theorem exceeds_digit {n : Int} (h : n.natAbs < 10) : exceeds n = false :=
  exceeds_eq_false (k := 1) h (by decide)

/-- A number with many digits has none. -/
theorem exceeds_eq_true {n : Int} {k : Nat} (hn : Nat.pow 10 k ≤ n.natAbs)
    (hk : mostDigits ≤ k) : exceeds n = true :=
  decide_eq_true (Nat.le_trans (pow_ten_le hk) hn)

/-- A number is too long if its numeral has too many digits. -/
theorem exceeds_eq_false_iff {n : Int} :
    exceeds n = false ↔ (Nat.toDigits 10 n.natAbs).length ≤ mostDigits := by
  rw [Nat.length_toDigits_le_iff (by decide) (by decide), exceeds, decide_eq_false_iff_not,
    Nat.not_le, Nat.pow_eq]

end Integer

namespace Json

/-! ## Part by part -/

@[simp] theorem carried_null : Carried .null := rfl

@[simp] theorem carried_bool (b : Bool) : Carried (.bool b) := rfl

@[simp] theorem carried_float (x : Binary64) : Carried (.float x) := rfl

@[simp] theorem carried_str (t : Text) : Carried (.str t) := rfl

@[simp] theorem carried_int {n : Int} : Carried (.int n) ↔ Integer.exceeds n = false := by
  simp [Carried, refusal?, scalarRefusal?]

@[simp] theorem not_carried_bytes (b : Bytes) : ¬Carried (.bytes b) := nofun

@[simp] theorem not_carried_set (members : List Scalar) : ¬Carried (.set members) := nofun

@[simp] theorem carried_pair {a b : Value} : Carried (.pair a b) ↔ Carried a ∧ Carried b :=
  Option.or_eq_none_iff

@[simp] theorem carried_list {items : List Value} :
    Carried (.list items) ↔ ∀ v ∈ items, Carried v := by
  induction items with
  | nil => simp [Carried, refusal?, itemsRefusal?]
  | cons v rest ih =>
    rw [List.forall_mem_cons, ← ih]
    exact Option.or_eq_none_iff

/-- A key has a text when it would have one as a value. -/
@[simp] theorem carried_dict {d : Dict} :
    Carried (.dict d) ↔ ∀ e ∈ d, Carried (.scalar e.1) ∧ Carried e.2 := by
  induction d with
  | nil => simp [Carried, refusal?, entriesRefusal?]
  | cons e rest ih =>
    rw [List.forall_mem_cons, ← ih, and_assoc]
    exact Option.or_eq_none_iff.trans (and_congr_right fun _ => Option.or_eq_none_iff)

theorem carried_record {fields : List (String × Value)} :
    Carried (.record fields) ↔ ∀ f ∈ fields, Carried f.2 := by
  rw [Value.record, carried_dict, Dict.ofFields, List.forall_mem_map]
  simp

/-- If one reason alone stands against some items, it stands against the list. -/
theorem refusal?_list_iff {reason : Fault} {P : Value → Prop} : ∀ {items : List Value},
    (∀ v ∈ items, ∀ f, refusal? v = some f ↔ f = reason ∧ P v) →
      ∀ f, refusal? (.list items) = some f ↔ f = reason ∧ ∃ v ∈ items, P v
  | [], _, f => by simp [refusal?, itemsRefusal?]
  | v :: rest, each, f => by
      obtain ⟨hv, hrest⟩ := List.forall_mem_cons.mp each
      have ih := refusal?_list_iff hrest f
      have hcons : refusal? (.list (v :: rest)) = (refusal? v).or (refusal? (.list rest)) := rfl
      rw [hcons]
      cases hfirst : refusal? v with
      | none =>
        have hnot : ¬P v := fun h => by cases hfirst.symm.trans ((hv reason).mpr ⟨rfl, h⟩)
        simpa [hnot] using ih
      | some g =>
        obtain ⟨rfl, hP⟩ := (hv g).mp hfirst
        simp [hP, eq_comm]

/-- What stands against a list stands against one of its items. -/
theorem exists_refusal?_of_list {f : Fault} : ∀ {items : List Value},
    refusal? (.list items) = some f → ∃ v ∈ items, refusal? v = some f
  | [], h => nomatch h
  | v :: rest, h => by
      rcases Option.or_eq_some_iff.mp h with hv | ⟨-, hrest⟩
      · exact ⟨v, List.mem_cons_self, hv⟩
      · obtain ⟨w, hw, hf⟩ := exists_refusal?_of_list hrest
        exact ⟨w, List.mem_cons_of_mem _ hw, hf⟩

/-- What stands against a dictionary stands against a key or a value of it. -/
theorem exists_refusal?_of_dict {f : Fault} : ∀ {d : Dict}, refusal? (.dict d) = some f →
    ∃ e ∈ d, scalarRefusal? e.1 = some f ∨ refusal? e.2 = some f
  | [], h => nomatch h
  | e :: rest, h => by
      rcases Option.or_eq_some_iff.mp h with hk | ⟨-, h⟩
      · exact ⟨e, List.mem_cons_self, .inl hk⟩
      · rcases Option.or_eq_some_iff.mp h with hv | ⟨-, hrest⟩
        · exact ⟨e, List.mem_cons_self, .inr hv⟩
        · obtain ⟨e', he', hf⟩ := exists_refusal?_of_dict hrest
          exact ⟨e', List.mem_cons_of_mem _ he', hf⟩

/-! ## Taking apart -/

namespace Carried

variable {v w : Value} {d : Dict} {k : Scalar}

theorem find? (h : Carried (.dict d)) (hfind : d.find? k = some w) : Carried w := by
  obtain ⟨e, he, -, rfl⟩ := Dict.exists_mem_of_find? hfind
  exact (carried_dict.mp h e he).2

theorem item {key : String} (h : Carried v) (hitem : v.item key = .ok w) : Carried w := by
  obtain ⟨d, rfl, hfind⟩ := Value.exists_dict_of_item hitem
  exact h.find? hfind

theorem field {key : String} (h : Carried v) (hfield : v.field key = .ok w) : Carried w := by
  by_cases hw : w = .null
  · exact hw ▸ carried_null
  · exact h.item (Value.item_of_field hfield hw)

theorem elements {parts : List Value} (h : Carried v) (hparts : v.elements = .ok parts) :
    ∀ w ∈ parts, Carried w := by
  cases v with
  | dict d =>
    obtain rfl := Except.ok.inj hparts
    exact List.forall_mem_map.mpr fun e he => (carried_dict.mp h e he).1
  | list items =>
    obtain rfl := Except.ok.inj hparts
    exact carried_list.mp h
  | pair a b =>
    obtain rfl := Except.ok.inj hparts
    simpa using h
  | set members => exact absurd h (not_carried_set members)
  | scalar s =>
    cases s with
    | str t =>
      obtain rfl := Except.ok.inj hparts
      exact List.forall_mem_map.mpr fun _ _ => carried_str _
    | bytes b => exact absurd h (not_carried_bytes b)
    | _ => cases hparts

theorem first (h : Carried v) (hfirst : v.first = .ok w) : Carried w := by
  rcases Value.first_cases hfirst with ⟨d, rfl, hfind⟩ | ⟨parts, hparts, hmem⟩
  · exact h.find? hfind
  · exact h.elements hparts w hmem

/-! ## Putting together -/

theorem set (h : Carried (.dict d)) (hk : Carried (.scalar k)) (hw : Carried w) :
    Carried (.dict (d.set k w)) := by
  rw [carried_dict] at h ⊢
  intro e he
  rcases Dict.mem_set he with hmem | ⟨rfl, rfl | ⟨-, e', hmem, hkey⟩⟩
  · exact h e hmem
  · exact ⟨hk, hw⟩
  · exact ⟨hkey ▸ (h e' hmem).1, hw⟩

theorem ofPairs (h : Carried (.dict d)) : Carried (.dict (Dict.ofPairs d)) := by
  have hfold : ∀ pairs acc : Dict, Carried (.dict acc) → Carried (.dict pairs) →
      Carried (.dict (pairs.foldl (fun (d : Dict) e => d.set e.1 e.2) acc)) := by
    intro pairs
    induction pairs with
    | nil => exact fun _ hacc _ => hacc
    | cons e rest ih =>
      intro acc hacc hpairs
      rw [carried_dict, List.forall_mem_cons] at hpairs
      exact ih _ (hacc.set hpairs.1.1 hpairs.1.2) (carried_dict.mpr hpairs.2)
  exact hfold d [] (carried_dict.mpr (List.forall_mem_nil _)) h

theorem entryAt {index : Nat} {e : Scalar × Value} (h : Carried v)
    (he : Value.entryAt index v = .ok e) : Carried (.scalar e.1) ∧ Carried e.2 := by
  obtain ⟨parts, hparts, he⟩ := bind_eq_ok.mp he
  have hcarried := h.elements hparts
  split at he
  · obtain rfl := Except.ok.inj he
    simpa using hcarried
  · cases he
  · cases he

theorem entriesFrom : ∀ {vs : List Value} {index : Nat} {pairs : Dict}, (∀ v ∈ vs, Carried v) →
    Value.entriesFrom index vs = .ok pairs → Carried (.dict pairs)
  | [], _, _, _, h => by
      obtain rfl := Except.ok.inj h
      exact carried_dict.mpr (List.forall_mem_nil _)
  | v :: rest, _, _, hvs, h => by
      obtain ⟨e, he, h⟩ := bind_eq_ok.mp h
      obtain ⟨others, hothers, h⟩ := bind_eq_ok.mp h
      obtain rfl := Except.ok.inj h
      obtain ⟨hv, hrest⟩ := List.forall_mem_cons.mp hvs
      exact carried_dict.mpr
        (List.forall_mem_cons.mpr ⟨hv.entryAt he, carried_dict.mp (entriesFrom hrest hothers)⟩)

theorem toDict (h : Carried v) (hd : v.toDict = .ok d) : Carried (.dict d) := by
  unfold Value.toDict at hd
  split at hd
  · exact Except.ok.inj hd ▸ h
  · obtain ⟨parts, hparts, hd⟩ := bind_eq_ok.mp hd
    obtain ⟨pairs, hpairs, hd⟩ := bind_eq_ok.mp hd
    obtain rfl := Except.ok.inj hd
    exact (entriesFrom (h.elements hparts) hpairs).ofPairs

/-! ## Converting keys -/

section

variable {f : Scalar → Except Fault Scalar}

mutual

theorem mapKeys (hf : ∀ k l, f k = .ok l → Carried (.scalar l)) :
    ∀ {v w : Value}, Carried v → v.mapKeys f = .ok w → Carried w
  | .scalar _, _, h, hw | .pair .., _, h, hw | .set _, _, h, hw => by
      rw [Value.mapKeys] at hw
      exact Except.ok.inj hw ▸ h
  | .list items, _, h, hw => by
      obtain ⟨ws, hws, hw⟩ := bind_eq_ok.mp hw
      exact Except.ok.inj hw ▸ carried_list.mpr (mapKeysItems hf (carried_list.mp h) hws)
  | .dict d, _, h, hw => by
      obtain ⟨pairs, hpairs, hw⟩ := bind_eq_ok.mp hw
      exact Except.ok.inj hw ▸
        ofPairs (carried_dict.mpr (mapKeysEntries hf (carried_dict.mp h) hpairs))

theorem mapKeysItems (hf : ∀ k l, f k = .ok l → Carried (.scalar l)) :
    ∀ {vs ws : List Value}, (∀ v ∈ vs, Carried v) → Value.mapKeysItems f vs = .ok ws →
      ∀ w ∈ ws, Carried w
  | [], _, _, hws => by
      obtain rfl := Except.ok.inj hws
      exact List.forall_mem_nil _
  | v :: rest, _, h, hws => by
      obtain ⟨w, hw, hws⟩ := bind_eq_ok.mp hws
      obtain ⟨others, hothers, hws⟩ := bind_eq_ok.mp hws
      obtain rfl := Except.ok.inj hws
      obtain ⟨hv, hrest⟩ := List.forall_mem_cons.mp h
      exact List.forall_mem_cons.mpr ⟨mapKeys hf hv hw, mapKeysItems hf hrest hothers⟩

theorem mapKeysEntries (hf : ∀ k l, f k = .ok l → Carried (.scalar l)) :
    ∀ {d e : List (Scalar × Value)}, (∀ p ∈ d, Carried (.scalar p.1) ∧ Carried p.2) →
      Value.mapKeysEntries f d = .ok e → ∀ p ∈ e, Carried (.scalar p.1) ∧ Carried p.2
  | [], _, _, he => by
      obtain rfl := Except.ok.inj he
      exact List.forall_mem_nil _
  | (k, v) :: rest, _, h, he => by
      obtain ⟨l, hl, he⟩ := bind_eq_ok.mp he
      obtain ⟨w, hw, he⟩ := bind_eq_ok.mp he
      obtain ⟨others, hothers, he⟩ := bind_eq_ok.mp he
      obtain rfl := Except.ok.inj he
      obtain ⟨hentry, hrest⟩ := List.forall_mem_cons.mp h
      exact List.forall_mem_cons.mpr
        ⟨⟨hf k l hl, mapKeys hf hentry.2 hw⟩, mapKeysEntries hf hrest hothers⟩

end

end

theorem camelKeys (h : Carried v) (hw : v.camelKeys = .ok w) : Carried w := by
  refine h.mapKeys (fun k l hl => ?_) hw
  cases k with
  | str t => exact Except.ok.inj hl ▸ carried_str _
  | _ => cases hl

theorem snakeKeys (h : Carried v) (hw : v.snakeKeys = .ok w) : Carried w := by
  refine h.mapKeys (fun k l hl => ?_) hw
  cases k with
  | str t => exact Except.ok.inj hl ▸ carried_str _
  | _ => cases hl

/-! ## Naming -/

theorem isWritable_scalar {s : Scalar} (h : Carried (.scalar s)) : s.isWritable = true := by
  cases s with
  | int n => simpa [Scalar.isWritable] using h
  | _ => rfl

mutual

/-- **What JSON carries can be named in a message.** -/
theorem isWritable : ∀ {v : Value}, Carried v → v.isWritable = true
  | .scalar _, h => h.isWritable_scalar
  | .list _, h => areWritable (carried_list.mp h)
  | .pair a b, h => by
      obtain ⟨ha, hb⟩ := carried_pair.mp h
      rw [Value.isWritable, isWritable ha, isWritable hb]
      rfl
  | .set members, h => absurd h (not_carried_set members)
  | .dict _, h => entriesWritable (carried_dict.mp h)

theorem areWritable : ∀ {vs : List Value}, (∀ v ∈ vs, Carried v) → Value.areWritable vs = true
  | [], _ => rfl
  | v :: rest, h => by
      obtain ⟨hv, hrest⟩ := List.forall_mem_cons.mp h
      rw [Value.areWritable, isWritable hv, areWritable hrest]
      rfl

theorem entriesWritable : ∀ {d : List (Scalar × Value)},
    (∀ e ∈ d, Carried (.scalar e.1) ∧ Carried e.2) → Value.entriesWritable d = true
  | [], _ => rfl
  | (k, v) :: rest, h => by
      obtain ⟨⟨hk, hv⟩, hrest⟩ := List.forall_mem_cons.mp h
      rw [Value.entriesWritable, hk.isWritable_scalar, isWritable hv, entriesWritable hrest]
      rfl

end

/-- What names only such values fails as it says. -/
theorem naming {named : List Value} (h : ∀ v ∈ named, Carried v) (f : Fault) :
    Fault.naming named f = f :=
  if_pos (List.all_eq_true.mpr fun v hv => (h v hv).isWritable)

end Carried

/-! ## Writing -/

theorem check_eq_ok {v : Value} : check v = .ok () ↔ Carried v := by
  rw [check, Carried]
  cases refusal? v <;> simp

/-- There is a text when there is one for every part. -/
theorem write_eq_ok {layout : Layout} {v : Value} {s : String} :
    write layout v = .ok s ↔ Carried v ∧ s = text layout v := by
  rw [write, bind_eq_ok, ← check_eq_ok]
  constructor
  · rintro ⟨_, hcheck, hs⟩
    exact ⟨hcheck, (Except.ok.inj hs).symm⟩
  · rintro ⟨hcheck, rfl⟩
    exact ⟨(), hcheck, rfl⟩

theorem write_eq_error {layout : Layout} {v : Value} {fault : Fault} :
    write layout v = .error fault ↔ refusal? v = some fault := by
  rw [write, check]
  cases refusal? v <;> simp

/-! ## Reading -/

/-- Digits make a number with so many digits. -/
theorem ofDigits_lt : ∀ {s : List CodePoint} {n k : Nat}, (∀ p ∈ s, isDigit p = true) →
    n < Nat.pow 10 k →
      s.foldl (fun n p => n * 10 + (p.toNat - 0x30)) n < Nat.pow 10 (k + s.length)
  | [], _, _, _, hn => hn
  | p :: rest, n, k, h, hn => by
      obtain ⟨hp, hrest⟩ := List.forall_mem_cons.mp h
      have hdigit : p.toNat - 0x30 < 10 := by
        rw [isDigit, Bool.and_eq_true, decide_eq_true_eq, decide_eq_true_eq] at hp
        cases p with
        | char c =>
          have hle : c.toNat ≤ '9'.toNat := hp.2
          have hnine : '9'.toNat = 0x39 := rfl
          simp only [CodePoint.toNat]
          omega
        | half n => exact absurd hp.2 (show ¬ '\ufffd' ≤ '9' by decide)
      have hstep : n * 10 + (p.toNat - 0x30) < Nat.pow 10 (k + 1) := by
        rw [show Nat.pow 10 (k + 1) = Nat.pow 10 k * 10 from rfl]
        omega
      have hfold := ofDigits_lt hrest hstep
      rwa [Nat.add_assoc, Nat.add_comm 1] at hfold

/-- A whole number that is read is not too long. -/
theorem carried_of_wholeNumber {negative : Bool} {digits : List CodePoint} {s : Scalar}
    (hdigits : ∀ p ∈ digits, isDigit p = true)
    (h : wholeNumber (some Integer.mostDigits) negative digits = .ok s) : Carried (.scalar s) := by
  rw [wholeNumber] at h
  split at h
  · cases h
  · rename_i hlength
    obtain rfl := Except.ok.inj h
    have hlt : ofDigits digits < Nat.pow 10 (0 + digits.length) := ofDigits_lt hdigits (by decide)
    rw [Nat.zero_add] at hlt
    have hle : digits.length ≤ Integer.mostDigits := by simpa using hlength
    refine carried_int.mpr (Integer.exceeds_eq_false ?_ hle)
    split
    · rw [Int.natAbs_neg]
      exact hlt
    · exact hlt

/-- A number is a whole one, or a double. -/
theorem carried_of_readUnsigned {negative : Bool} {s rest : List CodePoint} {n : Scalar}
    (h : readUnsigned (some Integer.mostDigits) negative s = .ok (n, rest)) :
    Carried (.scalar n) := by
  unfold readUnsigned at h
  extract_lets whole behind number at h
  have hwhole : ∀ p ∈ whole, isDigit p = true := by
    simp only [whole]
    split
    · intro p hp
      obtain rfl : p = .char '0' := by simpa using hp
      rfl
    · exact List.all_eq_true.mp List.all_takeWhile
  clear_value whole
  split at h
  · cases h
  · dsimp only [number] at h
    split at h
    · obtain ⟨m, hm, h⟩ := bind_eq_ok.mp h
      obtain ⟨rfl, -⟩ := Prod.mk.inj (Except.ok.inj h)
      exact carried_of_wholeNumber hwhole hm
    · obtain ⟨rfl, -⟩ := Prod.mk.inj (Except.ok.inj h)
      exact carried_float _

/-- What stands for itself is one of the words, or a number. -/
theorem carried_of_readAtom {s rest : List CodePoint} {a : Scalar}
    (h : readAtom (some Integer.mostDigits) s = .ok (a, rest)) : Carried (.scalar a) := by
  unfold readAtom at h
  split at h
  · rename_i found hfound
    obtain rfl := Except.ok.inj h
    obtain ⟨word, hmem, hword⟩ := List.exists_of_findSome?_eq_some hfound
    obtain ⟨_, -, hword⟩ := Option.map_eq_some_iff.mp hword
    obtain ⟨rfl, -⟩ := Prod.mk.inj hword
    have hwords : ∀ w ∈ words, Carried (.scalar w.2) := by
      simp [words]
    exact hwords word hmem
  · split at h
    · exact carried_of_readUnsigned h
    · exact carried_of_readUnsigned h

/-! The readers call each other with less and less fuel, so they are shown together, by the fuel.
Each step has a lemma of its own. -/

/-- What the readers answer with so much fuel has a JSON text. -/
structure ReadsCarried (fuel : Nat) : Prop where
  value : ∀ {s rest v}, readValue (some Integer.mostDigits) fuel s = .ok (v, rest) → Carried v
  items : ∀ {s rest items}, readItems (some Integer.mostDigits) fuel s = .ok (items, rest) →
    ∀ v ∈ items, Carried v
  entries : ∀ {s rest entries}, readEntries (some Integer.mostDigits) fuel s = .ok (entries, rest) →
    ∀ e ∈ entries, Carried (.scalar e.1) ∧ Carried e.2

namespace ReadsCarried

variable {fuel : Nat} {s rest : List CodePoint}

theorem value_succ (ih : ReadsCarried fuel) {v : Value}
    (h : readValue (some Integer.mostDigits) (fuel + 1) s = .ok (v, rest)) : Carried v := by
  rw [readValue.eq_def] at h
  split at h
  · cases h
  · obtain ⟨⟨t, _⟩, -, h⟩ := bind_eq_ok.mp h
    obtain ⟨rfl, -⟩ := Prod.mk.inj (Except.ok.inj h)
    exact carried_str _
  · rename_i k _ hk
    obtain rfl := Nat.succ.inj hk
    split at h
    · obtain ⟨rfl, -⟩ := Prod.mk.inj (Except.ok.inj h)
      exact carried_list.mpr (List.forall_mem_nil _)
    · obtain ⟨⟨items, _⟩, hitems, h⟩ := bind_eq_ok.mp h
      obtain ⟨rfl, -⟩ := Prod.mk.inj (Except.ok.inj h)
      exact carried_list.mpr (ih.items hitems)
  · rename_i k _ hk
    obtain rfl := Nat.succ.inj hk
    split at h
    · obtain ⟨rfl, -⟩ := Prod.mk.inj (Except.ok.inj h)
      exact carried_dict.mpr (List.forall_mem_nil _)
    · -- Of equal keys the last value stays, which is one of those that were read.
      obtain ⟨⟨entries, _⟩, hentries, h⟩ := bind_eq_ok.mp h
      obtain ⟨rfl, -⟩ := Prod.mk.inj (Except.ok.inj h)
      exact (carried_dict.mpr (ih.entries hentries)).ofPairs
  · obtain ⟨⟨a, _⟩, ha, h⟩ := bind_eq_ok.mp h
    obtain ⟨rfl, -⟩ := Prod.mk.inj (Except.ok.inj h)
    exact carried_of_readAtom ha

theorem items_succ (ih : ReadsCarried fuel) {items : List Value}
    (h : readItems (some Integer.mostDigits) (fuel + 1) s = .ok (items, rest)) :
    ∀ v ∈ items, Carried v := by
  obtain ⟨⟨v, _⟩, hv, h⟩ := bind_eq_ok.mp h
  dsimp only at h
  split at h
  · obtain ⟨⟨more, _⟩, hmore, h⟩ := bind_eq_ok.mp h
    obtain ⟨rfl, -⟩ := Prod.mk.inj (Except.ok.inj h)
    exact List.forall_mem_cons.mpr ⟨ih.value hv, ih.items hmore⟩
  · obtain ⟨rfl, -⟩ := Prod.mk.inj (Except.ok.inj h)
    exact List.forall_mem_singleton.mpr (ih.value hv)
  · cases h

theorem entries_succ (ih : ReadsCarried fuel) {entries : List (Scalar × Value)}
    (h : readEntries (some Integer.mostDigits) (fuel + 1) s = .ok (entries, rest)) :
    ∀ e ∈ entries, Carried (.scalar e.1) ∧ Carried e.2 := by
  rw [readEntries.eq_def] at h
  split at h
  · cases h
  · rename_i k _ hk
    obtain rfl := Nat.succ.inj hk
    obtain ⟨⟨key, _⟩, -, h⟩ := bind_eq_ok.mp h
    dsimp only at h
    split at h
    · obtain ⟨⟨v, _⟩, hv, h⟩ := bind_eq_ok.mp h
      have hentry : Carried (.str ⟨key⟩) ∧ Carried v := ⟨carried_str _, ih.value hv⟩
      dsimp only at h
      split at h
      · obtain ⟨⟨more, _⟩, hmore, h⟩ := bind_eq_ok.mp h
        obtain ⟨rfl, -⟩ := Prod.mk.inj (Except.ok.inj h)
        exact List.forall_mem_cons.mpr ⟨hentry, ih.entries hmore⟩
      · obtain ⟨rfl, -⟩ := Prod.mk.inj (Except.ok.inj h)
        exact List.forall_mem_singleton.mpr hentry
      · cases h
    · cases h
  · cases h

end ReadsCarried

theorem readsCarried : ∀ fuel, ReadsCarried fuel
  | 0 => ⟨fun h => (nomatch h), fun h => (nomatch h), fun h => (nomatch h)⟩
  | fuel + 1 =>
    have ih := readsCarried fuel
    ⟨ih.value_succ, ih.items_succ, ih.entries_succ⟩

/-- **What was read from a text has a text again.** -/
theorem carried_of_parse {t : Text} {v : Value} (h : parse t = .ok v) : Carried v := by
  obtain ⟨⟨v, rest⟩, hread, h⟩ := bind_eq_ok.mp h
  dsimp only at h
  split at h
  · exact Except.ok.inj h ▸ (readsCarried _).value hread
  · cases h

end Json
end CellNft
