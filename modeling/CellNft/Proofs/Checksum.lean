/-
CellNft.Proofs.Checksum — what the checksum of a text tells.

* `polymod_checksum`: with the six words that `checksum` adds, the remainder is the constant of the
  variant.
* `polymod_ne_of_changed`: when one word of a row is changed, a remainder that was the constant of
  one variant becomes that of neither.

Both rest on the register being linear (`polymodStep_xor`): what words do to it is the exclusive or
of what each does on its own, and a word that stands in front of `k` others adds itself shifted `k`
times (`polymod_append`, `polymod_changed`).

So a change would have to be shifted onto zero or onto the `gap` between the two constants. Shifting
loses nothing (`shift_injective`), which excludes zero. The gap comes back to itself after 1023
shifts, and nothing that it passes on the way has only five bits (`wide_of_gap`), so no word is ever
shifted onto it, however many others stand behind it.
-/
import CellNft.Address.Bech32
import Mathlib.Data.Nat.Bitwise
import Mathlib.Dynamics.PeriodicPts.Defs

namespace CellNft.Bech32

/-! ## The register is linear -/

theorem foldl_xor_map {α : Type} (f g : α → Nat) (xs : List α) (m n : Nat) :
    (xs.map fun x => f x ^^^ g x).foldl (· ^^^ ·) (m ^^^ n)
      = (xs.map f).foldl (· ^^^ ·) m ^^^ (xs.map g).foldl (· ^^^ ·) n := by
  induction xs generalizing m n with
  | nil => rfl
  | cons x rest ih =>
    have hhead : m ^^^ n ^^^ (f x ^^^ g x) = (m ^^^ f x) ^^^ (n ^^^ g x) := by ac_rfl
    rw [List.map_cons, List.foldl_cons, hhead, ih]
    rfl

theorem reduction_xor (s t : Nat) : reduction (s ^^^ t) = reduction s ^^^ reduction t := by
  have hbits : ∀ x : Nat × Nat, (if (s ^^^ t).testBit x.2 then x.1 else 0)
      = (if s.testBit x.2 then x.1 else 0) ^^^ (if t.testBit x.2 then x.1 else 0) := by
    intro x
    rw [Nat.testBit_xor]
    cases s.testBit x.2 <;> cases t.testBit x.2 <;> simp
  have hsum := foldl_xor_map (fun x : Nat × Nat => if s.testBit x.2 then x.1 else 0)
    (fun x => if t.testBit x.2 then x.1 else 0) generators.zipIdx 0 0
  simp only [← hbits] at hsum
  exact hsum

/-- **Registers and words can be taken apart.** -/
theorem polymodStep_xor (r s v w : Nat) :
    polymodStep (r ^^^ s) (v ^^^ w) = polymodStep r v ^^^ polymodStep s w := by
  rw [polymodStep, Nat.and_xor_distrib_right, Nat.shiftLeft_xor_distrib,
    Nat.shiftRight_xor_distrib, reduction_xor, polymodStep, polymodStep]
  ac_rfl

/-- A step of the register without a word. -/
def shift (register : Nat) : Nat := polymodStep register 0

theorem shift_xor (r s : Nat) : shift (r ^^^ s) = shift r ^^^ shift s := polymodStep_xor r s 0 0

theorem polymodStep_xor_word (r v w : Nat) :
    polymodStep r (v ^^^ w) = polymodStep r v ^^^ w := by
  rw [polymodStep, polymodStep]
  ac_rfl

theorem foldl_polymodStep_xor (words : List Nat) (r s : Nat) :
    words.foldl polymodStep (r ^^^ s) = words.foldl polymodStep r ^^^ shift^[words.length] s := by
  induction words generalizing r s with
  | nil => rfl
  | cons w rest ih =>
    have hstep : polymodStep (r ^^^ s) w = polymodStep r w ^^^ shift s := by
      have := polymodStep_xor r s w 0
      rwa [Nat.xor_zero] at this
    rw [List.foldl_cons, hstep, ih]
    rfl

/-- The words in front are shifted by those behind. -/
theorem polymod_append (front behind : List Nat) :
    polymod (front ++ behind)
      = shift^[behind.length] (polymod front) ^^^ behind.foldl polymodStep 0 := by
  have hsplit := foldl_polymodStep_xor behind 0 (polymod front)
  rw [Nat.zero_xor] at hsplit
  rw [polymod, List.foldl_append, ← polymod, hsplit, Nat.xor_comm]

/-- A changed word adds the change, shifted by the words behind it. -/
theorem polymod_changed (front behind : List Nat) (v w : Nat) :
    polymod (front ++ w :: behind)
      = polymod (front ++ v :: behind) ^^^ shift^[behind.length] (v ^^^ w) := by
  have hword : polymodStep (polymod front) w = polymodStep (polymod front) v ^^^ (v ^^^ w) := by
    rw [← polymodStep_xor_word, ← Nat.xor_assoc, Nat.xor_self, Nat.zero_xor]
  rw [polymod, List.foldl_append, List.foldl_cons, ← polymod, hword, foldl_polymodStep_xor,
    polymod, polymod, List.foldl_append, List.foldl_cons]

/-! ## Thirty bits -/

theorem reduction_lt (top : Nat) : reduction top < 2 ^ 30 := by
  have hsum : ∀ xs : List Nat, (∀ x ∈ xs, x < 2 ^ 30) → ∀ n < 2 ^ 30,
      xs.foldl (· ^^^ ·) n < 2 ^ 30 := by
    intro xs
    induction xs with
    | nil => intro _ n hn; exact hn
    | cons x rest ih =>
      intro h n hn
      exact ih (fun y hy => h y (List.mem_cons_of_mem x hy)) _
        (Nat.xor_lt_two_pow hn (h x List.mem_cons_self))
  refine hsum _ (fun x hx => ?_) 0 (by decide)
  obtain ⟨⟨g, i⟩, hg, rfl⟩ := List.mem_map.mp hx
  have hsmall : ∀ y ∈ generators.zipIdx, y.1 < 2 ^ 30 := by decide
  have := hsmall (g, i) hg
  simp only
  split
  · exact this
  · decide

theorem and_low (r : Nat) : r &&& 0x1ffffff = r % 2 ^ 25 :=
  Nat.and_two_pow_sub_one_eq_mod r 25

theorem polymodStep_lt (r : Nat) {w : Nat} (hw : w < 2 ^ 30) : polymodStep r w < 2 ^ 30 := by
  have hlow : (r &&& 0x1ffffff) <<< 5 < 2 ^ 30 := by
    rw [and_low, Nat.shiftLeft_eq]
    omega
  exact Nat.xor_lt_two_pow (Nat.xor_lt_two_pow hlow hw) (reduction_lt _)

theorem shift_lt (r : Nat) : shift r < 2 ^ 30 := polymodStep_lt r (by decide)

theorem iterate_shift_lt {r : Nat} (h : r < 2 ^ 30) (k : Nat) : shift^[k] r < 2 ^ 30 := by
  induction k generalizing r with
  | zero => exact h
  | succ k ih => exact ih (shift_lt r)

/-! ## The checksum is right -/

/-- As long as nothing leaves the register at the top, a word is put behind the others. -/
theorem polymodStep_of_lt {r w : Nat} (hr : r < 2 ^ 25) (hw : w < 32) :
    polymodStep r w = 32 * r + w := by
  have htop : r >>> 25 = 0 := by
    rw [Nat.shiftRight_eq_div_pow, Nat.div_eq_of_lt hr]
  have hred : reduction 0 = 0 := by decide
  have hmul : r <<< 5 = 2 ^ 5 * r + 0 := by
    rw [Nat.shiftLeft_eq]
    omega
  rw [polymodStep, and_low, Nat.mod_eq_of_lt hr, htop, hred, Nat.xor_zero]
  refine Nat.eq_of_testBit_eq fun i => ?_
  rw [show 32 * r + w = 2 ^ 5 * r + w from rfl, Nat.testBit_xor, hmul,
    Nat.testBit_two_pow_mul_add r (by decide), Nat.testBit_two_pow_mul_add r hw]
  split
  · simp
  · have hi : 2 ^ 5 ≤ 2 ^ i := Nat.pow_le_pow_right (by decide) (by omega)
    have : w.testBit i = false := Nat.testBit_lt_two_pow (Nat.lt_of_lt_of_le hw hi)
    simp [this]

/-- Six words fill the register. -/
theorem foldl_words {r : Nat} (h : r < 2 ^ 30) :
    ([25, 20, 15, 10, 5, 0].map fun s => (r >>> s) &&& 31).foldl polymodStep 0 = r := by
  have hword : ∀ s, (r >>> s) &&& 31 = r / 2 ^ s % 32 := by
    intro s
    rw [Nat.shiftRight_eq_div_pow]
    exact Nat.and_two_pow_sub_one_eq_mod _ 5
  have hlt : ∀ s, r / 2 ^ s % 32 < 32 := fun s => Nat.mod_lt _ (by decide)
  simp only [List.map_cons, List.map_nil, List.foldl_cons, List.foldl_nil, hword]
  rw [polymodStep_of_lt (by decide) (hlt 25), polymodStep_of_lt (by omega) (hlt 20),
    polymodStep_of_lt (by omega) (hlt 15), polymodStep_of_lt (by omega) (hlt 10),
    polymodStep_of_lt (by omega) (hlt 5), polymodStep_of_lt (by omega) (hlt 0)]
  omega

theorem Variant.constant_lt (variant : Variant) : variant.constant < 2 ^ 30 := by
  cases variant <;> decide

@[simp] theorem length_checksum (variant : Variant) (hrp : List Char) (words : List Nat) :
    (checksum variant hrp words).length = 6 := rfl

theorem lt_of_mem_checksum {variant : Variant} {hrp : List Char} {words : List Nat} {w : Nat}
    (h : w ∈ checksum variant hrp words) : w < 32 := by
  obtain ⟨s, -, rfl⟩ := List.mem_map.mp h
  rw [show (31 : Nat) = 2 ^ 5 - 1 from rfl, Nat.and_two_pow_sub_one_eq_mod]
  exact Nat.mod_lt _ (by decide)

/-- **The six words of the checksum leave the constant.** -/
theorem polymod_checksum (variant : Variant) (hrp : List Char) (words : List Nat) :
    polymod (expand hrp ++ (words ++ checksum variant hrp words)) = variant.constant := by
  generalize hp : polymod (expand hrp ++ words) = p
  have hzeros : polymod (expand hrp ++ words ++ [0, 0, 0, 0, 0, 0]) = shift^[6] p := by
    have hnone : [0, 0, 0, 0, 0, 0].foldl polymodStep 0 = 0 := by decide
    rw [polymod_append, hp, hnone, Nat.xor_zero]
    rfl
  have hfill : (checksum variant hrp words).foldl polymodStep 0
      = shift^[6] p ^^^ variant.constant := by
    rw [checksum, hzeros]
    exact foldl_words (Nat.xor_lt_two_pow (shift_lt _) variant.constant_lt)
  rw [← List.append_assoc, polymod_append, hp, hfill, length_checksum, ← Nat.xor_assoc,
    Nat.xor_self, Nat.zero_xor]

/-! ## One changed word -/

/-- The words that are added for the bits at the top end differently. -/
theorem eq_zero_of_reduction {top : Nat} (h : top < 32) (hlow : reduction top % 32 = 0) :
    top = 0 := by
  have hall : ∀ t < 32, reduction t % 32 = 0 → t = 0 := by decide
  exact hall top h hlow

theorem eq_zero_of_shift {r : Nat} (hr : r < 2 ^ 30) (h : shift r = 0) : r = 0 := by
  rw [shift, polymodStep, Nat.xor_zero, Nat.xor_eq_zero_iff, and_low, Nat.shiftLeft_eq,
    Nat.shiftRight_eq_div_pow] at h
  have htop : r / 2 ^ 25 = 0 := by
    refine eq_zero_of_reduction (by omega) ?_
    rw [← h]
    exact Nat.mul_mod_left _ _
  have hred : reduction 0 = 0 := by decide
  rw [htop, hred] at h
  omega

theorem shift_injective {r s : Nat} (hr : r < 2 ^ 30) (hs : s < 2 ^ 30) (h : shift r = shift s) :
    r = s := by
  have hxor : shift (r ^^^ s) = 0 := by
    rw [shift_xor, h, Nat.xor_self]
  exact Nat.xor_eq_zero_iff.mp (eq_zero_of_shift (Nat.xor_lt_two_pow hr hs) hxor)

theorem iterate_shift_injective {r s : Nat} (hr : r < 2 ^ 30) (hs : s < 2 ^ 30) (k : Nat)
    (h : shift^[k] r = shift^[k] s) : r = s := by
  induction k generalizing r s with
  | zero => exact h
  | succ k ih => exact shift_injective hr hs (ih (shift_lt r) (shift_lt s) h)

/-- What the two constants differ in. -/
def gap : Nat := Variant.bech32m.constant ^^^ Variant.bech32.constant

/-- Whether a register and what it becomes in so many shifts has more than five bits. -/
def staysWide : Nat → Nat → Bool
  | 0, _ => true
  | times + 1, r => 32 ≤ r && staysWide times (shift r)

theorem wide_of_staysWide {times r : Nat} (h : staysWide times r = true) :
    ∀ i < times, 32 ≤ shift^[i] r := by
  induction times generalizing r with
  | zero => nofun
  | succ times ih =>
    rw [staysWide, Bool.and_eq_true, decide_eq_true_eq] at h
    intro i hi
    cases i with
    | zero => exact h.1
    | succ i => exact ih h.2 i (by omega)

/-- The gap comes back to itself. -/
theorem isPeriodicPt_gap : Function.IsPeriodicPt shift 1023 gap := by
  have h : shift^[1023] gap = gap := by decide +kernel
  exact h

theorem staysWide_gap : staysWide 1023 gap = true := by decide +kernel

/-- Whatever the gap is shifted to has more than five bits. -/
theorem wide_of_gap (k : Nat) : 32 ≤ shift^[k] gap := by
  rw [← isPeriodicPt_gap.iterate_mod_apply]
  exact wide_of_staysWide staysWide_gap _ (Nat.mod_lt _ (by decide))

/-- No word is shifted onto the gap. -/
theorem iterate_shift_ne_gap {e : Nat} (he : e < 32) (k : Nat) : shift^[k] e ≠ gap := by
  intro h
  -- The register that becomes the gap in `k` shifts is one that the gap becomes.
  have hback : shift^[k] (shift^[1022 * k] gap) = gap := by
    rw [← Function.iterate_add_apply]
    have := isPeriodicPt_gap.mul_const k
    rwa [show 1023 * k = k + 1022 * k by omega] at this
  have hsame : e = shift^[1022 * k] gap :=
    iterate_shift_injective (by omega) (iterate_shift_lt (by decide) _) k (h.trans hback.symm)
  have := wide_of_gap (1022 * k)
  omega

/-- **A changed word makes a right checksum wrong for both variants.** -/
theorem polymod_ne_of_changed {front behind : List Nat} {v w : Nat} {variant : Variant}
    (hv : v < 32) (hw : w < 32) (hne : v ≠ w)
    (h : polymod (front ++ v :: behind) = variant.constant) (other : Variant) :
    polymod (front ++ w :: behind) ≠ other.constant := by
  have he : v ^^^ w < 2 ^ 5 := Nat.xor_lt_two_pow hv hw
  have hzero : v ^^^ w ≠ 0 := fun heq => hne (Nat.xor_eq_zero_iff.mp heq)
  intro hother
  rw [polymod_changed front behind v w, h] at hother
  -- The change has been shifted onto what the constants differ in.
  have hshift : shift^[behind.length] (v ^^^ w) = variant.constant ^^^ other.constant := by
    rw [← hother, ← Nat.xor_assoc, Nat.xor_self, Nat.zero_xor]
  have hgap := iterate_shift_ne_gap he behind.length
  have hnone : shift^[behind.length] (v ^^^ w) ≠ 0 := by
    intro h0
    have hstays : shift^[behind.length] 0 = 0 := Function.iterate_fixed (by decide) _
    exact hzero (iterate_shift_injective (by omega) (by decide) _ (h0.trans hstays.symm))
  rw [hshift] at hgap hnone
  cases variant <;> cases other
  · exact hnone (Nat.xor_self _)
  · exact hgap (Nat.xor_comm _ _)
  · exact hgap rfl
  · exact hnone (Nat.xor_self _)

end CellNft.Bech32
