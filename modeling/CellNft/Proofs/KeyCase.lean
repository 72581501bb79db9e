/-
CellNft.Proofs.KeyCase — records whose keys can be spelled either way.

A text `Survives` if its camel case spells it back in snake case, and it `Returns` if its snake case
spells it back in camel case. Where all keys at every depth do so and no dictionary has a key twice
(`Value.TextKeys`), converting keys is renaming them (`Value.rename`): no two keys become one, and
order and values stay. So converting there and back is nothing:

* `mapKeys_eq_rename`: converting is renaming, for any spelling that tells the keys apart.
* `mapKeys_rename`: converting back what was renamed gives what there was.
* `TextKeys.set_entry`: a dictionary in which an entry is written is such a value again.

Replies are made of dictionaries, lists and scalars only (`Value.JsonKeys`). Every part of such a
value is one, too (`JsonKeys.item`, `JsonKeys.first`, `JsonKeys.toDict`). The parts of pairs are
never converted, so `TextKeys` asks nothing of them.
-/
import CellNft.KeyCase
import CellNft.Proofs.Access

namespace CellNft

open Outcome

namespace KeyCase

/-- A text that is its own snake case by way of camel case. -/
def Survives (t : Text) : Prop := snake (camel t) = t

/-- A text that is its own camel case by way of snake case. -/
def Returns (t : Text) : Prop := camel (snake t) = t

instance (t : Text) : Decidable (Survives t) := inferInstanceAs (Decidable (_ = _))

instance (t : Text) : Decidable (Returns t) := inferInstanceAs (Decidable (_ = _))

theorem Survives.camel {t : Text} (h : Survives t) : Returns (camel t) := congrArg KeyCase.camel h

theorem Survives.injective {t u : Text} (ht : Survives t) (hu : Survives u)
    (h : KeyCase.camel t = KeyCase.camel u) : t = u :=
  ht.symm.trans ((congrArg KeyCase.snake h).trans hu)

theorem Returns.injective {t u : Text} (ht : Returns t) (hu : Returns u)
    (h : KeyCase.snake t = KeyCase.snake u) : t = u :=
  ht.symm.trans ((congrArg KeyCase.camel h).trans hu)

/-- A key in another spelling; only texts have one. -/
def renameKey (F : Text → Text) : Scalar → Scalar
  | .str t => .str (F t)
  | k => k

end KeyCase

namespace Value

/-- A value of dictionaries, lists and scalars. No dictionary has a key twice, and all keys are
texts that satisfy `P`. -/
inductive JsonKeys (P : Text → Prop) : Value → Prop
  | scalar (s : Scalar) : JsonKeys P (.scalar s)
  | list {items : List Value} (each : ∀ v ∈ items, JsonKeys P v) : JsonKeys P (.list items)
  | dict {d : Dict} (distinct : d.Distinct) (keys : ∀ e ∈ d, ∃ t, e.1 = .str t ∧ P t)
      (each : ∀ e ∈ d, JsonKeys P e.2) : JsonKeys P (.dict d)

theorem JsonKeys.mono {P Q : Text → Prop} {v : Value} (imp : ∀ t, P t → Q t) (h : JsonKeys P v) :
    JsonKeys Q v := by
  induction h with
  | scalar s => exact .scalar s
  | list _ ih => exact .list ih
  | dict distinct keys _ ih =>
    refine .dict distinct (fun e he => ?_) ih
    obtain ⟨t, ht, htP⟩ := keys e he
    exact ⟨t, ht, imp t htP⟩

mutual

/-- Whether all keys are texts that satisfy a condition, as `JsonKeys` says it. -/
def hasKeys (p : Text → Bool) : Value → Bool
  | .scalar _ => true
  | .list items => itemsHaveKeys p items
  | .pair .. | .set _ => false
  | .dict entries => decide (Dict.Distinct entries) && entriesHaveKeys p entries

def itemsHaveKeys (p : Text → Bool) : List Value → Bool
  | [] => true
  | v :: rest => hasKeys p v && itemsHaveKeys p rest

def entriesHaveKeys (p : Text → Bool) : List (Scalar × Value) → Bool
  | [] => true
  | (.str t, v) :: rest => p t && hasKeys p v && entriesHaveKeys p rest
  | _ :: _ => false

end

section

variable {P : Text → Prop} [DecidablePred P]

mutual

theorem JsonKeys.of_hasKeys : ∀ {v : Value}, v.hasKeys (fun t => decide (P t)) → JsonKeys P v
  | .scalar s, _ => .scalar s
  | .list items, h => .list (jsonKeys_of_itemsHaveKeys (by rwa [hasKeys] at h))
  | .pair .., h => by rw [hasKeys] at h; cases h
  | .set _, h => by rw [hasKeys] at h; cases h
  | .dict d, h => by
      rw [hasKeys, Bool.and_eq_true, decide_eq_true_eq] at h
      have hentries := jsonKeys_of_entriesHaveKeys h.2
      exact .dict h.1 (fun e he => (hentries e he).1) (fun e he => (hentries e he).2)

theorem jsonKeys_of_itemsHaveKeys : ∀ {items : List Value},
    itemsHaveKeys (fun t => decide (P t)) items → ∀ v ∈ items, JsonKeys P v
  | [], _ => List.forall_mem_nil _
  | v :: rest, h => by
      rw [itemsHaveKeys, Bool.and_eq_true] at h
      exact List.forall_mem_cons.mpr ⟨JsonKeys.of_hasKeys h.1, jsonKeys_of_itemsHaveKeys h.2⟩

theorem jsonKeys_of_entriesHaveKeys : ∀ {d : List (Scalar × Value)},
    entriesHaveKeys (fun t => decide (P t)) d →
      ∀ e ∈ d, (∃ t, e.1 = .str t ∧ P t) ∧ JsonKeys P e.2
  | [], _ => List.forall_mem_nil _
  | (k, v) :: rest, h => by
      cases k with
      | str t =>
        rw [entriesHaveKeys, Bool.and_eq_true, Bool.and_eq_true, decide_eq_true_eq] at h
        obtain ⟨⟨ht, hv⟩, hrest⟩ := h
        exact List.forall_mem_cons.mpr
          ⟨⟨⟨t, rfl, ht⟩, JsonKeys.of_hasKeys hv⟩, jsonKeys_of_entriesHaveKeys hrest⟩
      | _ => simp [entriesHaveKeys] at h

end
end

/-- A value whose dictionaries, where they are not inside pairs, have no key twice and only texts
that satisfy `P` for keys. -/
inductive TextKeys (P : Text → Prop) : Value → Prop
  | scalar (s : Scalar) : TextKeys P (.scalar s)
  | pair (a b : Value) : TextKeys P (.pair a b)
  | set (members : List Scalar) : TextKeys P (.set members)
  | list {items : List Value} (each : ∀ v ∈ items, TextKeys P v) : TextKeys P (.list items)
  | dict {d : Dict} (distinct : d.Distinct) (keys : ∀ e ∈ d, ∃ t, e.1 = .str t ∧ P t)
      (each : ∀ e ∈ d, TextKeys P e.2) : TextKeys P (.dict d)

theorem JsonKeys.textKeys {P : Text → Prop} {v : Value} (h : JsonKeys P v) : TextKeys P v := by
  induction h with
  | scalar s => exact .scalar s
  | list _ ih => exact .list ih
  | dict distinct keys _ ih => exact .dict distinct keys ih

/-- The value with every text key renamed. -/
def rename (F : Text → Text) : Value → Value
  | .list items => .list (items.map (rename F))
  | .dict d => .dict (d.map fun e => (KeyCase.renameKey F e.1, rename F e.2))
  | v => v
decreasing_by
  · decreasing_tactic
  · rename_i he
    have hlt := List.sizeOf_lt_of_mem he
    have hsnd : sizeOf e.2 < sizeOf e := by
      obtain ⟨k, v⟩ := e
      rw [Prod.mk.sizeOf_spec]
      exact Nat.lt_add_of_pos_left (by omega)
    rw [dict.sizeOf_spec]
    omega

end Value

/-- The dictionary with every text key renamed, at every depth. -/
def Dict.rename (F : Text → Text) (d : Dict) : Dict :=
  d.map fun e => (KeyCase.renameKey F e.1, e.2.rename F)

namespace Value

@[simp] theorem rename_scalar (F : Text → Text) (s : Scalar) :
    (scalar s).rename F = .scalar s := by
  rw [rename] <;> nofun

@[simp] theorem rename_pair (F : Text → Text) (a b : Value) : (pair a b).rename F = .pair a b := by
  rw [rename] <;> nofun

@[simp] theorem rename_set_members (F : Text → Text) (members : List Scalar) :
    (set members).rename F = .set members := by
  rw [rename] <;> nofun

@[simp] theorem rename_list (F : Text → Text) (items : List Value) :
    (list items).rename F = .list (items.map (rename F)) := by
  rw [rename]

@[simp] theorem rename_dict (F : Text → Text) (d : Dict) :
    (dict d).rename F = .dict (d.rename F) := by
  rw [rename, Dict.rename]

/-- Renaming does not make scalars. -/
theorem eq_scalar_of_rename {F : Text → Text} {v : Value} {s : Scalar}
    (h : v.rename F = .scalar s) : v = .scalar s := by
  cases v with
  | scalar s' => rwa [rename_scalar] at h
  | pair a b => rw [rename_pair] at h; cases h
  | set members => rw [rename_set_members] at h; cases h
  | list items => rw [rename_list] at h; cases h
  | dict d => rw [rename_dict] at h; cases h

/-- Renaming keeps what is empty empty. -/
theorem holds_rename (F : Text → Text) (v : Value) : (v.rename F).holds = v.holds := by
  cases v with
  | scalar s => rw [rename_scalar]
  | pair a b => rw [rename_pair]
  | set members => rw [rename_set_members]
  | list items => simp [holds]
  | dict d => simp [holds, Dict.rename]

/-! ## Converting is renaming -/

theorem mapKeysItems_eq_mapM (f : Scalar → Except Fault Scalar) :
    ∀ items : List Value, mapKeysItems f items = items.mapM (mapKeys f)
  | [] => rfl
  | v :: rest => by
      rw [mapKeysItems, mapKeysItems_eq_mapM f rest, List.mapM_cons]

theorem mapKeysEntries_eq_mapM (f : Scalar → Except Fault Scalar) : ∀ d : Dict,
    mapKeysEntries f d = d.mapM fun e => do
      let k ← f e.1
      let v ← mapKeys f e.2
      return (k, v)
  | [] => rfl
  | (k, v) :: rest => by
      rw [mapKeysEntries, mapKeysEntries_eq_mapM f rest, List.mapM_cons]
      simp only [bind_assoc, pure_bind]

variable {P Q : Text → Prop} {F : Text → Text}

/-- Distinct keys stay distinct where no two texts get one name. -/
theorem distinct_rename {d : Dict} (inj : ∀ t u, P t → P u → F t = F u → t = u)
    (distinct : d.Distinct) (keys : ∀ e ∈ d, ∃ t, e.1 = .str t ∧ P t) :
    (d.rename F).Distinct := by
  refine List.pairwise_map.mpr (List.Pairwise.imp_of_mem ?_ distinct)
  intro e e' he he' hne
  obtain ⟨t, ht, htP⟩ := keys e he
  obtain ⟨u, hu, huP⟩ := keys e' he'
  rw [ht, hu, Scalar.same_str, decide_eq_false_iff_not] at hne
  rw [ht, hu, KeyCase.renameKey, KeyCase.renameKey, Scalar.same_str, decide_eq_false_iff_not]
  intro heq
  exact hne (congrArg Scalar.str (inj t u htP huP (Scalar.str.inj heq)))

theorem JsonKeys.rename {v : Value} (inj : ∀ t u, P t → P u → F t = F u → t = u)
    (hQ : ∀ t, P t → Q (F t)) (h : JsonKeys P v) : JsonKeys Q (v.rename F) := by
  induction h with
  | scalar s =>
    rw [rename_scalar]
    exact .scalar s
  | @list items _ ih =>
    rw [rename_list]
    refine .list fun w hw => ?_
    obtain ⟨v, hv, rfl⟩ := List.mem_map.mp hw
    exact ih v hv
  | @dict d distinct keys _ ih =>
    rw [rename_dict]
    refine .dict (distinct_rename inj distinct keys) (fun e he => ?_) (fun e he => ?_)
    · obtain ⟨e, hmem, rfl⟩ := List.mem_map.mp he
      obtain ⟨t, ht, htP⟩ := keys e hmem
      exact ⟨F t, by rw [ht, KeyCase.renameKey], hQ t htP⟩
    · obtain ⟨e, hmem, rfl⟩ := List.mem_map.mp he
      exact ih e hmem

/-- **Where no two keys become one, converting keys is renaming them.** -/
theorem mapKeys_eq_rename {v : Value} {f : Scalar → Except Fault Scalar}
    (hf : ∀ t, f (.str t) = .ok (.str (F t))) (inj : ∀ t u, P t → P u → F t = F u → t = u)
    (h : TextKeys P v) : v.mapKeys f = .ok (v.rename F) := by
  induction h with
  | scalar s => rw [rename_scalar, mapKeys]
  | pair a b => rw [rename_pair, mapKeys]
  | set members => rw [rename_set_members, mapKeys]
  | list _ ih =>
    rw [rename_list, mapKeys, mapKeysItems_eq_mapM, mapM_eq_map ih]
    rfl
  | @dict d distinct keys _ ih =>
    have heach : ∀ e ∈ d, (do
        let k ← f e.1
        let v ← mapKeys f e.2
        return (k, v)) = (.ok (KeyCase.renameKey F e.1, e.2.rename F) : Except Fault _) := by
      intro e he
      obtain ⟨t, ht, -⟩ := keys e he
      rw [ht, hf, ih e he]
      rfl
    rw [rename_dict, mapKeys, mapKeysEntries_eq_mapM, mapM_eq_map heach, ok_bind]
    exact congrArg (fun e => Except.ok (dict e))
      (Dict.ofPairs_of_distinct (distinct_rename inj distinct keys))

/-- **Converting back what was renamed gives what there was.** -/
theorem mapKeys_rename {v : Value} {f : Scalar → Except Fault Scalar}
    (back : ∀ t, P t → f (.str (F t)) = .ok (.str t)) (h : TextKeys P v) :
    (v.rename F).mapKeys f = .ok v := by
  induction h with
  | scalar s => rw [rename_scalar, mapKeys]
  | pair a b => rw [rename_pair, mapKeys]
  | set members => rw [rename_set_members, mapKeys]
  | @list items _ ih =>
    have hback : (items.map (rename F)).mapM (mapKeys f) = .ok items := by
      rw [mapM_eq_ok_iff, List.forall₂_map_left_iff, List.forall₂_same]
      exact ih
    rw [rename_list, mapKeys, mapKeysItems_eq_mapM, hback]
    rfl
  | @dict d distinct keys _ ih =>
    have hback : (d.rename F).mapM (fun e => do
        let k ← f e.1
        let v ← mapKeys f e.2
        return (k, v)) = .ok d := by
      rw [mapM_eq_ok_iff, Dict.rename, List.forall₂_map_left_iff, List.forall₂_same]
      intro e he
      obtain ⟨t, ht, htP⟩ := keys e he
      rw [ht, KeyCase.renameKey, back t htP, ih e he, ← ht]
      rfl
    rw [rename_dict, mapKeys, mapKeysEntries_eq_mapM, hback, ok_bind,
      Dict.ofPairs_of_distinct distinct]
    rfl

/-- Converting keys succeeds at every part, or not at all. -/
theorem mapKeys_of_mem_dict {f : Scalar → Except Fault Scalar} {d : Dict} {w : Value}
    (h : (dict d).mapKeys f = .ok w) :
    ∀ e ∈ d, (∃ k, f e.1 = .ok k) ∧ ∃ v, e.2.mapKeys f = .ok v := by
  obtain ⟨d', hd', -⟩ := bind_eq_ok.mp h
  rw [mapKeysEntries_eq_mapM] at hd'
  intro e he
  obtain ⟨e', he'⟩ := exists_of_mapM hd' e he
  obtain ⟨k, hk, hvalue⟩ := bind_eq_ok.mp he'
  obtain ⟨v, hv, -⟩ := bind_eq_ok.mp hvalue
  exact ⟨⟨k, hk⟩, ⟨v, hv⟩⟩

theorem mapKeys_of_mem_list {f : Scalar → Except Fault Scalar} {items : List Value} {w : Value}
    (h : (list items).mapKeys f = .ok w) : ∀ v ∈ items, ∃ w, v.mapKeys f = .ok w := by
  obtain ⟨ws, hws, -⟩ := bind_eq_ok.mp h
  rw [mapKeysItems_eq_mapM] at hws
  exact exists_of_mapM hws

/-- A field after conversion is null or stood under a key that is spelled so. -/
theorem exists_of_field_camelKeys {v w u : Value} {key : String} (hw : v.camelKeys = .ok w)
    (hu : w.field key = .ok u) : u = .null ∨ ∃ (d : Dict) (t : Text) (raw : Value), v = .dict d ∧
      (.str t, raw) ∈ d ∧ KeyCase.camel t = key ∧ raw.camelKeys = .ok u := by
  cases v with
  | dict d =>
    obtain ⟨pairs, hpairs, hw⟩ := bind_eq_ok.mp hw
    obtain rfl := Except.ok.inj hw
    cases hfind : (Dict.ofPairs pairs).find? (.str key) with
    | none =>
      rw [field, hfind] at hu
      exact .inl (Except.ok.inj hu).symm
    | some x =>
      rw [field, hfind] at hu
      obtain rfl : x = u := Except.ok.inj hu
      rw [mapKeysEntries_eq_mapM, mapM_eq_ok_iff] at hpairs
      obtain ⟨⟨k, raw⟩, hmem, hentry⟩ :=
        exists_of_forall₂ hpairs _ (Dict.mem_of_find?_ofPairs hfind)
      obtain ⟨l, hl, hentry⟩ := bind_eq_ok.mp hentry
      obtain ⟨y, hy, hentry⟩ := bind_eq_ok.mp hentry
      obtain ⟨rfl, rfl⟩ := Prod.mk.inj (Except.ok.inj hentry)
      cases k with
      | str t =>
        exact .inr ⟨d, t, raw, rfl, hmem, Scalar.str.inj (Except.ok.inj hl), hy⟩
      | _ => cases hl
  | list items =>
    obtain ⟨ws, -, hw⟩ := bind_eq_ok.mp hw
    obtain rfl := Except.ok.inj hw
    cases hu
  | _ =>
    obtain rfl := Except.ok.inj hw
    cases hu

/-! ## There and back -/

theorem camelKeys_eq_rename {v : Value} (h : TextKeys KeyCase.Survives v) :
    v.camelKeys = .ok (v.rename KeyCase.camel) :=
  mapKeys_eq_rename (fun _ => rfl) (fun _ _ => KeyCase.Survives.injective) h

theorem snakeKeys_eq_rename {v : Value} (h : TextKeys KeyCase.Returns v) :
    v.snakeKeys = .ok (v.rename KeyCase.snake) :=
  mapKeys_eq_rename (fun _ => rfl) (fun _ _ => KeyCase.Returns.injective) h

/-- In camel case the keys return. -/
theorem JsonKeys.rename_camel {v : Value} (h : JsonKeys KeyCase.Survives v) :
    JsonKeys KeyCase.Returns (v.rename KeyCase.camel) :=
  h.rename (fun _ _ => KeyCase.Survives.injective) (fun _ => KeyCase.Survives.camel)

/-- **Keys that return come back from snake case.** -/
theorem camelKeys_rename_snake {v : Value} (h : TextKeys KeyCase.Returns v) :
    (v.rename KeyCase.snake).camelKeys = .ok v :=
  mapKeys_rename (fun _ ht => congrArg (fun u => Except.ok (Scalar.str u)) ht) h

/-- **Keys that survive come back from camel case.** -/
theorem snakeKeys_rename_camel {v : Value} (h : TextKeys KeyCase.Survives v) :
    (v.rename KeyCase.camel).snakeKeys = .ok v :=
  mapKeys_rename (fun _ ht => congrArg (fun u => Except.ok (Scalar.str u)) ht) h

/-! ## Parts -/

theorem JsonKeys.mem_dict {d : Dict} (h : JsonKeys P (.dict d)) : ∀ e ∈ d, JsonKeys P e.2 := by
  cases h with
  | dict _ _ each => exact each

theorem JsonKeys.item {v w : Value} {key : String} (h : JsonKeys P v) (hw : v.item key = .ok w) :
    JsonKeys P w := by
  obtain ⟨d, rfl, hfind⟩ := exists_dict_of_item hw
  exact h.mem_dict _ (Dict.mem_of_find?_str hfind)

/-- Characters and bytes are scalars. -/
theorem exists_scalar_of_elements {s : Scalar} {parts : List Value}
    (h : (scalar s).elements = .ok parts) : ∀ w ∈ parts, ∃ u, w = .scalar u := by
  cases s with
  | str t =>
    obtain rfl := Except.ok.inj h
    exact List.forall_mem_map.mpr fun _ _ => ⟨_, rfl⟩
  | bytes b =>
    obtain rfl := Except.ok.inj h
    exact List.forall_mem_map.mpr fun _ _ => ⟨_, rfl⟩
  | _ => cases h

/-- What a loop runs through are parts. -/
theorem JsonKeys.elements {v : Value} {parts : List Value} (h : JsonKeys P v)
    (hparts : v.elements = .ok parts) : ∀ w ∈ parts, JsonKeys P w := by
  cases h with
  | list each =>
    obtain rfl := Except.ok.inj hparts
    exact each
  | dict _ _ _ =>
    obtain rfl := Except.ok.inj hparts
    exact List.forall_mem_map.mpr fun _ _ => .scalar _
  | scalar s =>
    intro w hw
    obtain ⟨u, rfl⟩ := exists_scalar_of_elements hparts w hw
    exact .scalar u

theorem JsonKeys.first {v w : Value} (h : JsonKeys P v) (hw : v.first = .ok w) :
    JsonKeys P w := by
  rcases first_cases hw with ⟨d, rfl, hfind⟩ | ⟨parts, hparts, hmem⟩
  · obtain ⟨e, he, -, rfl⟩ := Dict.exists_mem_of_find? hfind
    exact h.mem_dict e he
  · exact h.elements hparts w hmem

/-- A value that is taken for a dictionary has values of its own, and no key twice. -/
theorem JsonKeys.toDict {v : Value} {d : Dict} (h : JsonKeys P v) (hd : v.toDict = .ok d) :
    d.Distinct ∧ ∀ e ∈ d, JsonKeys P e.2 := by
  have hpairs : (do return Dict.ofPairs (← entriesFrom 0 (← v.elements))) = Except.ok d →
      d.Distinct ∧ ∀ e ∈ d, JsonKeys P e.2 := by
    intro hd
    obtain ⟨vs, hvs, hd⟩ := bind_eq_ok.mp hd
    obtain ⟨pairs, hpairs, hd⟩ := bind_eq_ok.mp hd
    obtain rfl := Except.ok.inj hd
    refine ⟨Dict.distinct_ofPairs pairs, fun e he => ?_⟩
    obtain ⟨e', he', hvalue, -⟩ := Dict.exists_mem_of_mem_ofPairs he
    obtain ⟨w, hw, parts, hparts, hmem⟩ := exists_part_of_entriesFrom hpairs e' he'
    exact hvalue ▸ (h.elements hvs w hw).elements hparts _ hmem
  cases h with
  | dict distinct _ each =>
    obtain rfl := Except.ok.inj hd
    exact ⟨distinct, each⟩
  | _ => exact hpairs hd

theorem JsonKeys.record {fields : List (String × Value)} (nodup : (fields.map (·.1)).Nodup)
    (each : ∀ f ∈ fields, P (.ofString f.1) ∧ JsonKeys P f.2) : JsonKeys P (.record fields) := by
  refine .dict (Dict.distinct_ofFields nodup) (fun e he => ?_) (fun e he => ?_)
  · obtain ⟨f, hf, rfl⟩ := List.mem_map.mp he
    exact ⟨_, rfl, (each f hf).1⟩
  · obtain ⟨f, hf, rfl⟩ := List.mem_map.mp he
    exact (each f hf).2

theorem TextKeys.mem_list {items : List Value} (h : TextKeys P (.list items)) :
    ∀ v ∈ items, TextKeys P v := by
  cases h with
  | list each => exact each

theorem TextKeys.item {v w : Value} {key : String} (h : TextKeys P v) (hw : v.item key = .ok w) :
    TextKeys P w := by
  obtain ⟨d, rfl, hfind⟩ := exists_dict_of_item hw
  cases h with
  | dict _ _ each => exact each _ (Dict.mem_of_find?_str hfind)

/-- Writing an entry keeps the keys. -/
theorem TextKeys.set_entry {d : Dict} {t : Text} {v : Value} (h : TextKeys P (.dict d)) (ht : P t)
    (hv : TextKeys P v) : TextKeys P (.dict (d.set (.str t) v)) := by
  cases h with
  | dict distinct keys each =>
    refine .dict (distinct.set _ v) (fun e he => ?_) (fun e he => ?_)
    · rcases Dict.mem_set he with hmem | ⟨-, hkey | ⟨-, e', hmem, hkey⟩⟩
      · exact keys e hmem
      · exact ⟨t, hkey, ht⟩
      · rw [← hkey]
        exact keys e' hmem
    · rcases Dict.mem_set he with hmem | ⟨hvalue, -⟩
      · exact each e hmem
      · rw [hvalue]
        exact hv

theorem same_renameKey {k : Scalar} {t : Text} (inj : ∀ t u, P t → P u → F t = F u → t = u)
    (hk : ∃ u, k = .str u ∧ P u) (ht : P t) :
    (KeyCase.renameKey F k).same (.str (F t)) = k.same (.str t) := by
  obtain ⟨u, rfl, hu⟩ := hk
  rw [KeyCase.renameKey, Scalar.same_str, Scalar.same_str, decide_eq_decide, Scalar.str.injEq,
    Scalar.str.injEq]
  exact ⟨inj u t hu ht, congrArg F⟩

/-- An entry is renamed where it stands. -/
theorem rename_set {d : Dict} {t : Text} (v : Value)
    (inj : ∀ t u, P t → P u → F t = F u → t = u) (keys : ∀ e ∈ d, ∃ u, e.1 = .str u ∧ P u)
    (ht : P t) : (d.set (.str t) v).rename F = (d.rename F).set (.str (F t)) (v.rename F) := by
  induction d with
  | nil => rfl
  | cons e rest ih =>
    have hrest := ih fun e' he' => keys e' (List.mem_cons_of_mem _ he')
    have hsame := same_renameKey inj (keys e List.mem_cons_self) ht
    rw [Dict.rename] at hrest
    rw [Dict.rename, Dict.rename, List.map_cons, Dict.set, Dict.set, hsame]
    split
    · rfl
    · rw [List.map_cons, hrest, Dict.rename]

/-- In snake case an entry stands under its name in snake case. -/
theorem snake_set {d : Dict} {t : Text} (h : TextKeys KeyCase.Returns (.dict d))
    (ht : KeyCase.Returns t) (v : Value) : (d.set (.str t) v).rename KeyCase.snake
      = (d.rename KeyCase.snake).set (.str (KeyCase.snake t)) (v.rename KeyCase.snake) := by
  cases h with
  | dict _ keys _ => exact rename_set v (fun _ _ => KeyCase.Returns.injective) keys ht

/-- An entry is found under its other name. -/
theorem find?_rename {d : Dict} {t : Text} (inj : ∀ t u, P t → P u → F t = F u → t = u)
    (keys : ∀ e ∈ d, ∃ u, e.1 = .str u ∧ P u) (ht : P t) :
    (d.rename F).find? (.str (F t)) = (d.find? (.str t)).map (Value.rename F) := by
  induction d with
  | nil => rfl
  | cons e rest ih =>
    have hrest := ih fun e' he' => keys e' (List.mem_cons_of_mem _ he')
    have hsame := same_renameKey inj (keys e List.mem_cons_self) ht
    simp only [Dict.rename, Dict.find?, List.map_cons, List.find?_cons, hsame] at hrest ⊢
    split
    · rfl
    · exact hrest

theorem find?_snake {d : Dict} {t : Text} {v : Value} (h : TextKeys KeyCase.Returns (.dict d))
    (ht : KeyCase.Returns t) (hfind : d.find? (.str t) = some v) :
    (d.rename KeyCase.snake).find? (.str (KeyCase.snake t))
      = some (v.rename KeyCase.snake) := by
  cases h with
  | dict _ keys _ =>
    rw [find?_rename (fun _ _ => KeyCase.Returns.injective) keys ht, hfind, Option.map_some]

theorem snakeKeys_list_eq_ok {items : List Value} {w : Value} :
    (list items).snakeKeys = .ok w ↔
      ∃ items', items.mapM snakeKeys = .ok items' ∧ .list items' = w := by
  rw [snakeKeys, mapKeys, mapKeysItems_eq_mapM]
  simp only [bind_eq_ok, pure_eq_ok, Except.ok.injEq]
  rfl

theorem snakeKeys_list {items items' : List Value} (h : items.mapM snakeKeys = .ok items') :
    (list items).snakeKeys = .ok (.list items') :=
  snakeKeys_list_eq_ok.mpr ⟨items', h, rfl⟩

/-- A record is converted field by field. -/
theorem snakeKeys_record {fields fields' : List (String × Value)}
    (each : List.Forall₂ (fun f f' => KeyCase.snake f.1 = f'.1 ∧ f.2.snakeKeys = .ok f'.2)
      fields fields') (nodup : (fields'.map (·.1)).Nodup) :
    (record fields).snakeKeys = .ok (record fields') := by
  have hentries : mapKeysEntries KeyCase.snakeKey (Dict.ofFields fields)
      = .ok (Dict.ofFields fields') := by
    rw [mapKeysEntries_eq_mapM, Dict.ofFields, Dict.ofFields, mapM_eq_ok_iff,
      List.forall₂_map_left_iff, List.forall₂_map_right_iff]
    refine each.imp fun f f' h => ?_
    obtain ⟨hname, hvalue⟩ := h
    rw [snakeKeys] at hvalue
    rw [KeyCase.snakeKey, hname, ok_bind, hvalue]
    rfl
  rw [snakeKeys, record, mapKeys, hentries, ok_bind,
    Dict.ofPairs_of_distinct (Dict.distinct_ofFields nodup)]
  rfl

/-- The fields of a converted record are its fields, converted. -/
theorem item_of_snakeKeys {fields : List (String × Value)} {v w : Value} {key name : String}
    (h : (record fields).snakeKeys = .ok w) (nodup : (fields.map fun f => KeyCase.snake f.1).Nodup)
    (hmem : (key, v) ∈ fields) (hname : KeyCase.snake key = name) :
    ∃ u, v.snakeKeys = .ok u ∧ w.item name = .ok u := by
  obtain ⟨pairs, hpairs, h⟩ := bind_eq_ok.mp h
  obtain rfl := Except.ok.inj h
  rw [mapKeysEntries_eq_mapM, Dict.ofFields, mapM_eq_ok_iff, List.forall₂_map_left_iff] at hpairs
  have heach : List.Forall₂ (fun (f : String × Value) (e : Scalar × Value) =>
      .str (KeyCase.snake f.1) = e.1 ∧ f.2.snakeKeys = .ok e.2) fields pairs := by
    refine hpairs.imp fun f e he => ?_
    obtain ⟨k, hk, he⟩ := bind_eq_ok.mp he
    obtain ⟨u, hu, he⟩ := bind_eq_ok.mp he
    obtain rfl := Except.ok.inj he
    exact ⟨Except.ok.inj hk, hu⟩
  have hkeys : fields.map (fun f => Scalar.str (KeyCase.snake f.1)) = pairs.map (·.1) := by
    rw [← List.forall₂_eq_eq_eq, List.forall₂_map_left_iff, List.forall₂_map_right_iff]
    exact heach.imp fun _ _ he => he.1
  have hdistinct : Dict.Distinct pairs :=
    Dict.distinct_of_keys (hkeys.symm.trans (List.map_map ..).symm) nodup
  obtain ⟨⟨k, u⟩, hpair, hk, hu⟩ := exists_of_forall₂ heach.flip (key, v) hmem
  obtain rfl : Scalar.str (KeyCase.snake key) = k := hk
  refine ⟨u, hu, ?_⟩
  rw [Dict.ofPairs_of_distinct hdistinct, item_dict, ← hname]
  exact hdistinct.find?_of_mem hpair

/-! ## Reading what is in camel case -/

theorem field_camel {v : Value} {key key' : String} (h : TextKeys KeyCase.Survives v)
    (hkey : KeyCase.Survives key) (hcamel : KeyCase.camel key = key') :
    (v.rename KeyCase.camel).field key' = rename KeyCase.camel <$> v.field key := by
  cases h with
  | @dict d _ keys _ =>
    have hfind := find?_rename (fun _ _ => KeyCase.Survives.injective) keys hkey
    rw [rename_dict, field, field, ← hcamel, hfind, map_ok]
    cases d.find? (.str key) with
    | none => simp
    | some w => rfl
  | list _ => rw [rename_list]; rfl
  | scalar s => rw [rename_scalar]; rfl
  | pair a b => rw [rename_pair]; rfl
  | set members => rw [rename_set_members]; rfl

/-- What is found in camel case stood there in snake case. -/
theorem item_of_camel {v w : Value} {key key' : String} (h : TextKeys KeyCase.Survives v)
    (hkey : KeyCase.Survives key) (hcamel : KeyCase.camel key = key')
    (hw : (v.rename KeyCase.camel).item key' = .ok w) :
    ∃ u, v.item key = .ok u ∧ w = u.rename KeyCase.camel := by
  cases h with
  | @dict d _ keys _ =>
    rw [rename_dict, item_dict, ← hcamel,
      find?_rename (fun _ _ => KeyCase.Survives.injective) keys hkey] at hw
    obtain ⟨u, hu, rfl⟩ := Option.map_eq_some_iff.mp hw
    exact ⟨u, item_dict.mpr hu, rfl⟩
  | list _ => rw [rename_list] at hw; cases hw
  | scalar s => rw [rename_scalar] at hw; cases hw
  | pair a b => rw [rename_pair] at hw; cases hw
  | set members => rw [rename_set_members] at hw; cases hw

/-- The first of the renamed items is the first item, renamed. -/
theorem JsonKeys.first_of_rename {v w : Value} (h : JsonKeys P v)
    (hw : (v.rename F).first = .ok w) : ∃ u, v.first = .ok u ∧ w = u.rename F := by
  cases h with
  | @list items _ =>
    rw [rename_list] at hw
    cases items with
    | nil => cases hw
    | cons u rest =>
      rw [List.map_cons, first_cons] at hw
      exact ⟨u, first_cons u rest, (Except.ok.inj hw).symm⟩
  | @dict d _ keys _ =>
    have hnone : (d.rename F).find? (.int 0) = none := by
      simp only [Dict.find?, Option.map_eq_none_iff, List.find?_eq_none]
      intro e he
      obtain ⟨e', he', rfl⟩ := List.mem_map.mp he
      obtain ⟨t, ht, -⟩ := keys e' he'
      rw [ht]
      exact Bool.false_ne_true
    rw [rename_dict, Value.first, select, hnone] at hw
    cases hw
  | scalar s =>
    rw [rename_scalar] at hw
    refine ⟨w, hw, ?_⟩
    rcases first_cases hw with ⟨d, hd, -⟩ | ⟨parts, hparts, hmem⟩
    · cases hd
    · obtain ⟨u, rfl⟩ := exists_scalar_of_elements hparts w hmem
      rw [rename_scalar]

end Value
end CellNft
