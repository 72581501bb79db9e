/-
CellNft.Proofs.Capacity — what is left of a cell's capacity when the cell pays a fee.

* `Hex.Canonical` is the form in which whole numbers of any size are written: a minus sign if one is
  needed, the mark, and lower case digits without leading zeros.
* `Service.Charges` says what a fee that is given as a value amounts to. Null is the fee of the
  service; zero is a fee like any other.
* `Service.output_eq` is the output in the place of a cell's, as an equation with both of its cases.

`output_conserves`: what is written is read back, so the new capacity and the fee are the old
capacity. There is an output exactly if some capacity is left, and it differs from the old one in its
capacity only. The old capacity may be written in any form that can be read.
-/
import CellNft.Cota.Service
import CellNft.Proofs.Hex
import CellNft.Proofs.LockFrame

namespace CellNft

open Outcome

/-! ## Whole numbers of any size -/

namespace Hex

/-- A whole number in hex: sign, mark and digits, the first of which is zero for zero only. -/
def Canonical (n : Int) (t : Text) : Prop :=
  ∃ digit digits, t = .ofChars ((if n < 0 then ['-'] else []) ++ '0' :: 'x' :: digit :: digits) ∧
    (∀ c ∈ digit :: digits, c ∈ "0123456789abcdef".toList) ∧
    (digit = '0' → n = 0 ∧ digits = [])

/-- The digits of a number do not start with a zero, unless that is all. -/
theorem head_hexDigits {n : Nat} {digit : Char} {digits : List Char}
    (h : Integer.hexDigits n = digit :: digits) (hzero : digit = '0') : n = 0 ∧ digits = [] := by
  induction n using Nat.strongRecOn generalizing digits with
  | ind n ih =>
    rw [Integer.hexDigits, Nat.toDigits_eq_if (by decide)] at h
    split at h
    · rename_i hn
      obtain ⟨hdigit, hdigits⟩ := List.cons.inj h
      have hall : ∀ m < 16, Nat.digitChar m = '0' → m = 0 := by decide
      exact ⟨hall n hn (hdigit.trans hzero), hdigits.symm⟩
    · rename_i hn
      -- The digits in front are those of a smaller number, which is not zero.
      obtain ⟨d, ds, -, hfront, -⟩ := Integer.exists_digits (n / 16)
      rw [Integer.hexDigits] at hfront
      rw [hfront, List.map_cons, List.cons_append] at h
      obtain ⟨hdigit, -⟩ := List.cons.inj h
      rw [List.map_cons, hdigit] at hfront
      have hsmall := (ih (n / 16) (by omega) hfront).1
      omega

theorem canonical_hexText (n : Int) : Canonical n (String.ofList (Integer.hexText n)) := by
  obtain ⟨d, ds, -, hdigits, -⟩ := Integer.exists_digits n.natAbs
  rw [List.map_cons] at hdigits
  refine ⟨Nat.digitChar d, ds.map Nat.digitChar, ?_, ?_, fun hzero => ?_⟩
  · rw [Text.ofString_ofList, Integer.hexText, hdigits]
    split <;> rfl
  · intro c hc
    rw [← hdigits] at hc
    obtain ⟨e, he, rfl⟩ := Integer.exists_digit_of_mem_hexDigits hc
    interval_cases e <;> decide
  · obtain ⟨hn, hrest⟩ := head_hexDigits hdigits hzero
    exact ⟨Int.natAbs_eq_zero.mp hn, hrest⟩

theorem writeInt_int (n : Int) : writeInt (.int n) = .ok (String.ofList (Integer.hexText n)) := rfl

theorem writeInt_injective {m n : Int} (h : writeInt (.int m) = writeInt (.int n)) : m = n := by
  have hread := readInt_hexText m
  rw [writeInt_int, writeInt_int] at h
  rw [Except.ok.inj h, readInt_hexText] at hread
  exact (Except.ok.inj hread).symm

end Hex

/-! ## Paying -/

namespace Cota.Service

/-- What a fee amounts to that is given as a value. -/
inductive Charges (s : Service) : Value → Int → Prop
  | usual : Charges s .null s.fee
  | asked {fee : Value} {n : Int} (h : fee.index? = some n) : Charges s fee n

/-- A cell, the fields of its output, and the capacity among them as it is shown and as a number. -/
structure HasCapacity (cell : Value) (d : Dict) (shown : Value) (capacity : Int) : Prop where
  output : ∃ v, cell.item "output" = .ok v ∧ v.toDict = .ok d
  found : d.find? (.str "capacity") = some shown
  read : Hex.readInt shown = .ok capacity

/-- The fields of an output after paying. -/
structure Pays (paid capacity : Int) (before after : Dict) : Prop where
  beside : Dict.SameBeside "capacity" before after
  left : ∃ shown left, after.find? (.str "capacity") = some shown ∧
    Hex.readInt shown = .ok left ∧ left + paid = capacity

theorem Charges.exists_scalar {s : Service} {fee : Value} {paid : Int} (h : s.Charges fee paid) :
    ∃ x, s.feeOr fee = .ok x ∧ x.number? = some (.int paid) := by
  cases h with
  | usual => exact ⟨_, rfl, rfl⟩
  | asked h =>
    unfold Value.index? at h
    split at h
    · obtain rfl := Option.some.inj h
      exact ⟨_, rfl, rfl⟩
    · obtain rfl := Option.some.inj h
      exact ⟨_, rfl, rfl⟩
    · cases h

theorem capacityAfter_eq {shown : Value} {capacity paid : Int} {fee : Scalar}
    (hfee : fee.number? = some (.int paid)) : capacityAfter shown capacity fee =
      if paid < capacity then .ok (String.ofList (Integer.hexText (capacity - paid)))
      else .error (.capacityTooSmall shown) := by
  have hsub : (Scalar.int capacity).sub fee = .ok (.int (capacity - paid)) := by
    rw [Scalar.sub, Scalar.calculate, hfee]
    rfl
  have hcheck : ((Number.int (capacity - paid)).lt (.int 0) ||
      (Number.int (capacity - paid)).eq (.int 0)) = !decide (paid < capacity) := by
    rw [Number.lt, Number.eq, ← Bool.decide_or, ← decide_not, decide_eq_decide]
    omega
  rw [capacityAfter, hsub, ok_bind]
  simp only [Scalar.number?, hcheck]
  by_cases hpos : paid < capacity
  · simp [hpos, Hex.writeInt_int]
  · simp [hpos]

theorem output_eq {s : Service} {cell fee shown : Value} {d : Dict} {capacity paid : Int}
    (hcell : HasCapacity cell d shown capacity) (hfee : s.Charges fee paid) : s.output cell fee =
      if paid < capacity then .ok (.dict (d.set (.str "capacity")
        (.str (String.ofList (Integer.hexText (capacity - paid))))))
      else .error (.capacityTooSmall shown) := by
  obtain ⟨⟨v, hv, hd⟩, hshown, hcapacity⟩ := hcell
  obtain ⟨x, hx, hnumber⟩ := hfee.exists_scalar
  rw [output, hv, ok_bind, hd, ok_bind, Value.item_dict.mpr hshown, ok_bind, hcapacity, ok_bind, hx,
    ok_bind, capacityAfter_eq hnumber]
  split <;> rfl

theorem pays_set {d : Dict} {shown : Value} (hshown : d.find? (.str "capacity") = some shown)
    (capacity paid : Int) : Pays paid capacity d (d.set (.str "capacity")
      (.str (String.ofList (Integer.hexText (capacity - paid))))) where
  beside := Dict.sameBeside_set hshown _
  left := ⟨_, _, Dict.find?_set_self _ _ _, Hex.readInt_hexText _, by omega⟩

/-- **Whole numbers that are written are read back, so no capacity is lost or made.** -/
theorem output_conserves :
    (∀ n : Int, ∃ text : String, Hex.writeInt (.int n) = .ok text ∧ Hex.Canonical n text ∧
      Hex.readInt (.str text) = .ok n) ∧
    (∀ m n : Int, Hex.writeInt (.int m) = Hex.writeInt (.int n) → m = n) ∧
    ∀ (s : Service) (cell fee shown : Value) (d : Dict) (capacity paid : Int),
      HasCapacity cell d shown capacity → s.Charges fee paid →
        ((∃ output, s.output cell fee = .ok output) ↔ 0 < capacity - paid) ∧
        (capacity - paid ≤ 0 → s.output cell fee = .error (.capacityTooSmall shown)) ∧
        ∀ output, s.output cell fee = .ok output →
          ∃ d', output = .dict d' ∧ Pays paid capacity d d' := by
  refine ⟨fun n => ⟨_, Hex.writeInt_int n, Hex.canonical_hexText n, Hex.readInt_hexText n⟩,
    fun m n => Hex.writeInt_injective, fun s cell fee shown d capacity paid hcell hfee => ?_⟩
  have houtput := output_eq hcell hfee
  by_cases hpos : paid < capacity
  · rw [if_pos hpos] at houtput
    refine ⟨⟨fun _ => by omega, fun _ => ⟨_, houtput⟩⟩, fun _ => by omega, fun output h => ?_⟩
    obtain rfl := Except.ok.inj (houtput.symm.trans h)
    exact ⟨_, rfl, pays_set hcell.found capacity paid⟩
  · rw [if_neg hpos] at houtput
    refine ⟨⟨?_, fun _ => by omega⟩, fun _ => houtput, fun output h => ?_⟩
    · rintro ⟨output, h⟩
      cases houtput.symm.trans h
    · cases houtput.symm.trans h

/-- A capacity of 1001 in an unusual form. It pays the fee of the service and one is left; it pays
nothing if that is asked for; and it cannot pay all that it is. -/
theorem output_conserves_thrice :
    let d : Dict := Dict.ofFields [("lock", .null), ("capacity", .str " +0X_3E9\n")]
    let cell := Value.record [("output", .dict d)]
    ∃ s : Service, s.fee = 1000 ∧
      (∃ d', s.output cell .null = .ok (.dict d') ∧ Pays 1000 1001 d d') ∧
      (∃ d', s.output cell (.int 0) = .ok (.dict d') ∧ Pays 0 1001 d d') ∧
      s.output cell (.int 1001) = .error (.capacityTooSmall (.str " +0X_3E9\n")) := by
  intro d cell
  let server : Rpc.Client := ⟨.null, .null⟩
  let s : Service :=
    { collector := ⟨⟨server⟩, ⟨server⟩⟩, aggregator := ⟨server, server⟩, cotaTypeScript := []
      cotaCellDep := [], secp256k1Dep := none, fee := 1000 }
  have hcell : HasCapacity cell d (.str " +0X_3E9\n") 1001 :=
    ⟨⟨.dict d, Value.item_record.mpr rfl, rfl⟩, rfl, rfl⟩
  obtain ⟨-, -, hall⟩ := output_conserves
  have hpays : ∀ fee paid, s.Charges fee paid → 0 < 1001 - paid →
      ∃ d', s.output cell fee = .ok (.dict d') ∧ Pays paid 1001 d d' := by
    intro fee paid hfee hpos
    obtain ⟨hiff, -, hconserves⟩ := hall s cell fee _ d 1001 paid hcell hfee
    obtain ⟨output, houtput⟩ := hiff.mpr hpos
    obtain ⟨d', rfl, hd'⟩ := hconserves output houtput
    exact ⟨d', houtput, hd'⟩
  obtain ⟨-, hfails, -⟩ := hall s cell (.int 1001) _ d 1001 1001 hcell (.asked rfl)
  exact ⟨s, rfl, hpays _ _ .usual (by decide), hpays _ _ (.asked rfl) (by decide),
    hfails (by decide)⟩

end Cota.Service
end CellNft
