/-
CellNft.Proofs.Bytes — numbers written as bytes.

`toNatLE_ofNatLE` is the law everything else rests on: a number that fits its width is read back as
it was written. So of two numbers that fit, only one has the given bytes (`ofNatLE_injective`).
-/
import CellNft.Bytes
import Mathlib.Algebra.Order.Group.Nat
import Mathlib.Tactic.Ring

namespace CellNft.Bytes

@[simp] theorem length_ofNatLE : ∀ (width n : Nat), (ofNatLE width n).length = width
  | 0, _ => rfl
  | width + 1, n => by simp [ofNatLE, length_ofNatLE width]

@[simp] theorem length_ofNatBE (width n : Nat) : (ofNatBE width n).length = width := by
  simp [ofNatBE]

/-- A number that fits its width is read back. -/
theorem toNatLE_ofNatLE : ∀ (width n : Nat), n < 256 ^ width → toNatLE (ofNatLE width n) = n
  | 0, n, h => by
      have : n = 0 := by simpa using h
      simp [ofNatLE, toNatLE, this]
  | width + 1, n, h => by
      have hrest : n / 256 < 256 ^ width := by
        rw [Nat.div_lt_iff_lt_mul (by decide)]
        rwa [pow_succ] at h
      have hlow : (UInt8.ofNat (n % 256)).toNat = n % 256 := by simp
      rw [ofNatLE, toNatLE, toNatLE_ofNatLE width _ hrest, hlow]
      omega

/-- Of the numbers that fit a width, only one has the given bytes. -/
theorem ofNatLE_injective {width n m : Nat} (hn : n < 256 ^ width) (hm : m < 256 ^ width)
    (h : ofNatLE width n = ofNatLE width m) : n = m := by
  rw [← toNatLE_ofNatLE width n hn, h, toNatLE_ofNatLE width m hm]

end CellNft.Bytes
