/-
CellNft.Proofs.Regrouping — bytes survive being regrouped to words of five bits.

`ofWords?_toWords`: the words that `toWords` makes of bytes are bytes again, the same ones. Both
directions go through the row of bits, so the proof is about that row only:

* a number of a width is its bits (`ofBits_bits`), and bits are those of their number
  (`bits_ofBits`);
* cutting a row into groups loses nothing (`groupBits_cut`), and a row that was put together from
  groups falls into the same groups (`groupBits_flatten`).

The zeros that fill up the last word are fewer than five, so they are what is left over on the way
back.
-/
import CellNft.Address.Bech32
import Mathlib.Algebra.Order.Group.Nat
import Mathlib.Data.Nat.Bitwise
import Mathlib.Tactic.Ring

namespace CellNft.Bech32

/-! ## Numbers and their bits -/

theorem bits_succ (width n : Nat) : bits (width + 1) n = n.testBit width :: bits width n := by
  simp [bits, List.range_succ]

@[simp] theorem length_bits (width n : Nat) : (bits width n).length = width := by
  simp [bits]

theorem foldl_ofBits (b : List Bool) (n : Nat) :
    b.foldl (fun n bit => 2 * n + bit.toNat) n = 2 ^ b.length * n + ofBits b := by
  induction b generalizing n with
  | nil => simp [ofBits]
  | cons bit rest ih =>
    rw [ofBits, List.foldl_cons, List.foldl_cons, ih, ih (2 * 0 + bit.toNat), List.length_cons]
    ring

theorem ofBits_cons (bit : Bool) (rest : List Bool) :
    ofBits (bit :: rest) = 2 ^ rest.length * bit.toNat + ofBits rest := by
  rw [ofBits, List.foldl_cons, foldl_ofBits]
  ring

theorem ofBits_lt (b : List Bool) : ofBits b < 2 ^ b.length := by
  induction b with
  | nil => simp [ofBits]
  | cons bit rest ih =>
    rw [ofBits_cons, List.length_cons, Nat.pow_succ]
    have hbit : bit.toNat ≤ 1 := Bool.toNat_le bit
    have : 2 ^ rest.length * bit.toNat ≤ 2 ^ rest.length * 1 := Nat.mul_le_mul_left _ hbit
    omega

/-- The lowest bits of a number are the number without the others. -/
theorem ofBits_bits (width n : Nat) : ofBits (bits width n) = n % 2 ^ width := by
  induction width with
  | zero => simp [bits, ofBits, Nat.mod_one]
  | succ width ih =>
    rw [bits_succ, ofBits_cons, length_bits, ih, Nat.mod_pow_succ, Nat.toNat_testBit]
    omega

/-- Bits are the bits of their number. -/
theorem bits_ofBits (b : List Bool) : bits b.length (ofBits b) = b := by
  have hlow : ∀ (width n m : Nat), bits width (2 ^ width * m + n % 2 ^ width) = bits width n := by
    intro width n m
    refine List.map_congr_left fun i hi => ?_
    have hi : i < width := by simpa using hi
    rw [Nat.testBit_two_pow_mul_add m (Nat.mod_lt _ (Nat.two_pow_pos width)) i, if_pos hi,
      Nat.testBit_mod_two_pow, decide_eq_true hi, Bool.true_and]
  induction b with
  | nil => rfl
  | cons bit rest ih =>
    have hrest := ofBits_lt rest
    have hmod : ofBits rest % 2 ^ rest.length = ofBits rest := Nat.mod_eq_of_lt hrest
    have htail := hlow rest.length (ofBits rest) bit.toNat
    rw [hmod, ih] at htail
    rw [List.length_cons, bits_succ, ofBits_cons, htail,
      Nat.testBit_two_pow_mul_add _ hrest, if_neg (Nat.lt_irrefl _), Nat.sub_self]
    cases bit <;> rfl

/-! ## Groups -/

theorem length_flatten_groups {size : Nat} {groups : List (List Bool)}
    (h : ∀ g ∈ groups, g.length = size) : groups.flatten.length = size * groups.length := by
  rw [List.length_flatten, List.map_congr_left h, List.map_const', List.sum_replicate_nat,
    Nat.mul_comm]

/-- Cutting a row of bits into groups loses nothing. -/
theorem groupBits_cut {size : Nat} (hsize : 0 < size) : ∀ (fuel : Nat) (b : List Bool),
    b.length ≤ fuel →
    (groupBits size fuel b).1.flatten ++ (groupBits size fuel b).2 = b ∧
      (∀ g ∈ (groupBits size fuel b).1, g.length = size) ∧
      (groupBits size fuel b).2.length < size
  | 0, b, h => by
      obtain rfl : b = [] := List.eq_nil_of_length_eq_zero (by omega)
      simp [groupBits, hsize]
  | fuel + 1, b, h => by
      rw [groupBits]
      by_cases hshort : b.length < size
      · simp [hshort]
      · have hdrop : (b.drop size).length ≤ fuel := by
          rw [List.length_drop]
          omega
        obtain ⟨hflat, hgroups, hleft⟩ := groupBits_cut hsize fuel (b.drop size) hdrop
        simp only [hshort, if_false]
        refine ⟨?_, ?_, hleft⟩
        · rw [List.flatten_cons, List.append_assoc, hflat, List.take_append_drop]
        · intro g hg
          rcases List.mem_cons.mp hg with rfl | hg
          · rw [List.length_take]
            omega
          · exact hgroups g hg

/-- A row that is put together from groups falls into these groups. -/
theorem groupBits_flatten {size : Nat} {left : List Bool} (hleft : left.length < size) :
    ∀ (groups : List (List Bool)) (fuel : Nat), (∀ g ∈ groups, g.length = size) →
      groups.length ≤ fuel → groupBits size fuel (groups.flatten ++ left) = (groups, left)
  | [], 0, _, _ => rfl
  | [], fuel + 1, _, _ => by simp [groupBits, hleft]
  | g :: rest, 0, _, h => by simp at h
  | g :: rest, fuel + 1, hgroups, h => by
      have hg : g.length = size := hgroups g List.mem_cons_self
      have hlong : ¬ ((g :: rest).flatten ++ left).length < size := by
        simp only [List.flatten_cons, List.length_append, hg]
        omega
      have ih := groupBits_flatten hleft rest fuel
        (fun g' hg' => hgroups g' (List.mem_cons_of_mem g hg')) (by simpa using h)
      have hrow : (g :: rest).flatten ++ left = g ++ (rest.flatten ++ left) := by simp
      rw [groupBits, if_neg hlong, hrow, List.drop_left' hg, List.take_left' hg, ih]

/-! ## Words -/

/-- The zeros behind the bits of the bytes. -/
def padding (b : List Bool) : List Bool := List.replicate ((5 - b.length % 5) % 5) false

/-- The words of bytes have five bits. -/
theorem lt_of_mem_toWords {bytes : Bytes} {word : Nat} (h : word ∈ toWords bytes) : word < 32 := by
  obtain ⟨g, hg, rfl⟩ := List.mem_map.mp h
  have hlen : g.length = 5 := (groupBits_cut (by decide) _ _ (Nat.le_refl _)).2.1 g hg
  have hlt := ofBits_lt g
  rwa [hlen] at hlt

/-- The bits of the words are those of the bytes and the zeros behind them. -/
theorem flatMap_bits_toWords (bytes : Bytes) :
    (toWords bytes).flatMap (bits 5)
      = bytes.flatMap (fun x => bits 8 x.toNat)
        ++ padding (bytes.flatMap fun x => bits 8 x.toNat) := by
  generalize hb : (bytes.flatMap fun x => bits 8 x.toNat) = b
  have hwords : toWords bytes
      = (groupBits 5 (b ++ padding b).length (b ++ padding b)).1.map ofBits := by
    rw [toWords, hb, padding]
  obtain ⟨hflat, hgroups, hleft⟩ :=
    groupBits_cut (by decide : 0 < 5) _ (b ++ padding b) (Nat.le_refl _)
  rw [hwords]
  generalize groupBits 5 (b ++ padding b).length (b ++ padding b) = cut at hflat hgroups hleft ⊢
  have hback : ∀ g ∈ cut.1, (bits 5 ∘ ofBits) g = g := by
    intro g hg
    have := bits_ofBits g
    rwa [hgroups g hg] at this
  -- A multiple of five leaves nothing over.
  have hwhole : cut.2 = [] := by
    have htotal := congrArg List.length hflat
    simp only [List.length_append, length_flatten_groups hgroups, padding,
      List.length_replicate] at htotal
    exact List.eq_nil_of_length_eq_zero (by omega)
  rw [List.flatMap_map, List.flatMap_def]
  rw [hwhole, List.append_nil] at hflat
  rw [← hflat]
  congr 1
  exact (List.map_congr_left hback).trans (List.map_id _)

/-- **Bytes are read back from their words.** -/
theorem ofWords?_toWords (bytes : Bytes) : ofWords? (toWords bytes) = some bytes := by
  have hbytes : ∀ x ∈ bytes, UInt8.ofNat (ofBits (bits 8 x.toNat)) = x := by
    intro x _
    rw [ofBits_bits, Nat.mod_eq_of_lt x.toNat_lt, UInt8.ofNat_toNat]
  have hzeros : (padding (bytes.flatMap fun x => bits 8 x.toNat)).length < 5 := by
    rw [padding, List.length_replicate]
    omega
  have hrow := flatMap_bits_toWords bytes
  generalize padding (bytes.flatMap fun x => bits 8 x.toNat) = zeros at hzeros hrow
  rw [List.flatMap_def (l := bytes)] at hrow
  generalize hg : (bytes.map fun x => bits 8 x.toNat) = groups at hrow
  have hgroups : ∀ g ∈ groups, g.length = 8 := by
    rw [← hg]
    simp
  have hfuel : groups.length ≤ (groups.flatten ++ zeros).length := by
    rw [List.length_append, length_flatten_groups hgroups]
    omega
  have hleft : zeros.length < 8 := by omega
  have hcut := groupBits_flatten hleft groups _ hgroups hfuel
  rw [ofWords?, hrow, hcut]
  simp only [hzeros, if_true, ← hg, List.map_map, Option.some.injEq]
  exact (List.map_congr_left hbytes).trans (List.map_id _)

end CellNft.Bech32
