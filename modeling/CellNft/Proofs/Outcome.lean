/-
CellNft.Proofs.Outcome — taking outcomes apart.

Every reader and every writer of the library is a chain of steps, each of which may fail. When the
whole chain ends well, so did each step:

* `bind_eq_ok` and `map_eq_ok` cut a chain after its first step.
* `mapM_eq_ok_iff` cuts a run through a list into its items, `forM_eq_ok_iff` a run that only checks
  them, and `mapM_injective` lifts to lists that a writer gives different results for different
  items.
-/
import Mathlib.Data.List.Forall2

namespace CellNft.Outcome

variable {ε α β : Type}

@[simp] theorem pure_eq_ok (a : α) : (pure a : Except ε α) = .ok a := rfl

@[simp] theorem throw_eq_error (e : ε) : (throw e : Except ε α) = .error e := rfl

@[simp] theorem ok_bind (a : α) (f : α → Except ε β) : (Except.ok a >>= f) = f a := rfl

@[simp] theorem error_bind (e : ε) (f : α → Except ε β) : (Except.error e >>= f) = .error e := rfl

@[simp] theorem map_ok (f : α → β) (a : α) : f <$> (Except.ok a : Except ε α) = .ok (f a) := rfl

@[simp] theorem map_error (f : α → β) (e : ε) :
    f <$> (Except.error e : Except ε α) = .error e := rfl

theorem exists_of_isOk {x : Except ε α} (h : x.isOk = true) : ∃ a, x = .ok a := by
  cases x with
  | ok a => exact ⟨a, rfl⟩
  | error e => cases h

theorem eq_ok_of_toOption {x : Except ε α} {a : α} (h : x.toOption = some a) : x = .ok a := by
  cases x with
  | ok b => exact congrArg Except.ok (Option.some.inj h)
  | error e => cases h

/-- A chain ends well when its first step does and the rest does on what it answers. -/
theorem bind_eq_ok {x : Except ε α} {f : α → Except ε β} {b : β} :
    (x >>= f) = .ok b ↔ ∃ a, x = .ok a ∧ f a = .ok b := by
  cases x <;> simp

theorem map_eq_ok {f : α → β} {x : Except ε α} {b : β} :
    f <$> x = .ok b ↔ ∃ a, x = .ok a ∧ f a = b := by
  cases x <;> simp

/-- A run through a list ends well when it does at each item. -/
theorem mapM_eq_ok_iff {f : α → Except ε β} : ∀ {xs : List α} {ys : List β},
    xs.mapM f = .ok ys ↔ List.Forall₂ (fun x y => f x = .ok y) xs ys
  | [], ys => by
      simp only [List.mapM_nil, pure_eq_ok, Except.ok.injEq, List.forall₂_nil_left_iff]
      exact eq_comm
  | x :: xs, ys => by
      simp only [List.mapM_cons, bind_eq_ok, pure_eq_ok, Except.ok.injEq,
        List.forall₂_cons_left_iff]
      constructor
      · rintro ⟨y, hy, zs, hzs, rfl⟩
        exact ⟨y, zs, hy, mapM_eq_ok_iff.mp hzs, rfl⟩
      · rintro ⟨y, zs, hy, hzs, rfl⟩
        exact ⟨y, hy, zs, mapM_eq_ok_iff.mpr hzs, rfl⟩

theorem mapM_singleton_eq_ok {f : α → Except ε β} {x : α} {ys : List β} :
    [x].mapM f = .ok ys ↔ ∃ y, f x = .ok y ∧ ys = [y] := by
  simp only [mapM_eq_ok_iff, List.forall₂_cons_left_iff, List.forall₂_nil_left_iff]
  constructor
  · rintro ⟨y, _, hy, rfl, rfl⟩
    exact ⟨y, hy, rfl⟩
  · rintro ⟨y, hy, rfl⟩
    exact ⟨y, [], hy, rfl, rfl⟩

/-- Items that are only checked are all found right. -/
theorem forM_eq_ok_iff {f : α → Except ε Unit} : ∀ {xs : List α},
    xs.forM f = .ok () ↔ ∀ x ∈ xs, f x = .ok ()
  | [] => by simp
  | x :: xs => by
      simp only [List.forM_eq_forM, List.forM_cons, bind_eq_ok, List.forall_mem_cons,
        ← forM_eq_ok_iff]
      exact ⟨fun ⟨_, hx, hxs⟩ => ⟨hx, hxs⟩, fun ⟨hx, hxs⟩ => ⟨_, hx, hxs⟩⟩

/-- Two runs through a list are one. -/
theorem mapM_mapM {γ : Type} {f : α → Except ε β} {g : β → Except ε γ} {xs : List α} {ys : List β}
    {zs : List γ} (hf : xs.mapM f = .ok ys) (hg : ys.mapM g = .ok zs) :
    xs.mapM (fun x => f x >>= g) = .ok zs := by
  rw [mapM_eq_ok_iff] at hf hg ⊢
  induction hf generalizing zs with
  | nil =>
    obtain rfl := List.forall₂_nil_left_iff.mp hg
    exact .nil
  | cons hx _ ih =>
    obtain ⟨z, rest, hz, hrest, rfl⟩ := List.forall₂_cons_left_iff.mp hg
    exact .cons (bind_eq_ok.mpr ⟨_, hx, hz⟩) (ih hrest)

theorem mapM_eq_map {f : α → Except ε β} {g : α → β} {xs : List α}
    (each : ∀ x ∈ xs, f x = .ok (g x)) : xs.mapM f = .ok (xs.map g) := by
  rw [mapM_eq_ok_iff, List.forall₂_map_right_iff, List.forall₂_same]
  exact each

/-- Items that each have a partner form a list that has one. -/
theorem exists_forall₂ {R : α → β → Prop} : ∀ {xs : List α}, (∀ x ∈ xs, ∃ y, R x y) →
    ∃ ys, List.Forall₂ R xs ys
  | [], _ => ⟨[], .nil⟩
  | x :: xs, h => by
      obtain ⟨y, hy⟩ := h x List.mem_cons_self
      obtain ⟨ys, hys⟩ := exists_forall₂ fun x' hx' => h x' (List.mem_cons_of_mem x hx')
      exact ⟨y :: ys, .cons hy hys⟩

/-- Where each item is known from what is made of it, so is the list. -/
theorem mapM_injective {f : α → Except ε β} {xs xs' : List α} {ys : List β}
    (inj : ∀ y ∈ ys, ∀ x x', f x = .ok y → f x' = .ok y → x = x')
    (h : xs.mapM f = .ok ys) (h' : xs'.mapM f = .ok ys) : xs = xs' := by
  replace h := mapM_eq_ok_iff.mp h
  replace h' := mapM_eq_ok_iff.mp h'
  induction h generalizing xs' with
  | nil => exact (List.forall₂_nil_right_iff.mp h').symm
  | @cons x y xs ys hx _ ih =>
    obtain ⟨x', rest, hx', hrest, rfl⟩ := List.forall₂_cons_right_iff.mp h'
    rw [inj y List.mem_cons_self x x' hx hx',
      ih (fun z hz => inj z (List.mem_cons_of_mem y hz)) hrest]

/-- Every item of the second list has its partner in the first. -/
theorem exists_of_forall₂ {R : α → β → Prop} {xs : List α} {ys : List β}
    (h : List.Forall₂ R xs ys) : ∀ y ∈ ys, ∃ x ∈ xs, R x y := by
  induction h with
  | nil =>
    intro y hy
    cases hy
  | @cons x y xs ys hx _ ih =>
    intro z hz
    rcases List.mem_cons.mp hz with rfl | hz
    · exact ⟨x, List.mem_cons_self, hx⟩
    · obtain ⟨x', hmem, hx'⟩ := ih z hz
      exact ⟨x', List.mem_cons_of_mem x hmem, hx'⟩

/-- A run through a list that ends well did so at each item. -/
theorem exists_of_mapM {f : α → Except ε β} {xs : List α} {ys : List β} (h : xs.mapM f = .ok ys) :
    ∀ x ∈ xs, ∃ y, f x = .ok y := by
  intro x hx
  obtain ⟨y, -, hy⟩ := exists_of_forall₂ (mapM_eq_ok_iff.mp h).flip x hx
  exact ⟨y, hy⟩

/-- What a run through a list answers is made of its items. -/
theorem mapM_forall {f : α → Except ε β} {P : β → Prop} {xs : List α} {ys : List β}
    (h : xs.mapM f = .ok ys) (each : ∀ x y, f x = .ok y → P y) : ∀ y ∈ ys, P y := by
  intro y hy
  obtain ⟨x, -, hx⟩ := exists_of_forall₂ (mapM_eq_ok_iff.mp h) y hy
  exact each x y hx

end CellNft.Outcome
