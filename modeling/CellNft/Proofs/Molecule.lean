/-
CellNft.Proofs.Molecule — the layouts can be read back, so they are injective.

* `item?_table`: item `i` that is read from a table is item `i` that was written, for any number of
  items of any lengths, empty ones included. A table whose size fits four bytes therefore determines
  its items (`table_injective`).
* `fixVec_injective` and `bytes_injective` are the same for the two simpler layouts. They need no
  bound: there the items can be told apart without the number in front.

The lemmas about offsets cut the list of items in two, `xs ++ ys`. The offset of the first item of
`ys` is the length of `xs` joined, so no lemma has to speak of indices before `item?_table` does.
-/
import CellNft.Chain.Molecule
import CellNft.Proofs.Bytes
import Mathlib.Data.List.Flatten

namespace CellNft.Molecule

/-! ## Sizes -/

@[simp] theorem length_size (n : Nat) : (size n).length = 4 := by simp [size]

/-- A size is read where it was written. -/
theorem sizeAt_append (front back : Bytes) {n : Nat} (h : n < 2 ^ 32) :
    sizeAt (front ++ (size n ++ back)) front.length = n := by
  have htake : ((front ++ (size n ++ back)).drop front.length).take 4 = size n := by
    rw [List.drop_left, List.take_left' (length_size n)]
  rw [sizeAt, htake, size, Bytes.toNatLE_ofNatLE 4 n (by omega)]

/-- A serialisation is handed on as it is, and only when it fits. -/
theorem sized_eq_ok {b c : Bytes} : sized b = .ok c ↔ b.length < 2 ^ 32 ∧ c = b := by
  unfold sized
  split <;> simp_all [eq_comm]

/-! ## Offsets -/

@[simp] theorem length_offsets : ∀ (start : Nat) (items : List Bytes),
    (offsets start items).length = 4 * items.length
  | _, [] => rfl
  | start, item :: rest => by
      rw [offsets, List.length_append, length_size, length_offsets _ rest, List.length_cons]
      omega

/-- Behind `xs` the offsets go on where `xs` ends. -/
theorem offsets_append : ∀ (start : Nat) (xs ys : List Bytes),
    offsets start (xs ++ ys) = offsets start xs ++ offsets (start + xs.flatten.length) ys
  | start, [], ys => by simp [offsets]
  | start, x :: xs, ys => by
      rw [List.cons_append, offsets, offsets, offsets_append _ xs ys, List.append_assoc,
        List.flatten_cons, List.length_append, Nat.add_assoc]

/-! ## Tables -/

/-- The items stand behind a head of one size and one offset for each. -/
theorem exists_head (items : List Bytes) :
    ∃ head : Bytes, head.length = 4 + 4 * items.length ∧ table items = head ++ items.flatten := by
  refine ⟨size _ ++ offsets _ items, ?_, rfl⟩
  rw [List.length_append, length_size, length_offsets]

theorem length_table (items : List Bytes) :
    (table items).length = 4 + 4 * items.length + items.flatten.length := by
  obtain ⟨head, hlen, htable⟩ := exists_head items
  rw [htable, List.length_append, hlen]

/-- An item takes no more room than the table. -/
theorem length_item_le {items : List Bytes} {item : Bytes} (h : item ∈ items) :
    item.length ≤ (table items).length := by
  have hflat := (List.sublist_flatten_of_mem h).length_le
  rw [length_table]
  omega

theorem wellSized_table {items : List Bytes} (h : (table items).length < 2 ^ 32) :
    wellSized (table items) = true := by
  have hlen := length_table items
  have hsize : sizeAt (table items) 0 = (table items).length := by
    rw [hlen] at h ⊢
    rw [table, List.append_assoc]
    exact sizeAt_append [] _ h
  rw [wellSized, hsize]
  simp only [Bool.and_eq_true, decide_eq_true_eq, and_true]
  omega

/-- The first offset tells how many items there are. -/
theorem count_table {items : List Bytes} (h : (table items).length < 2 ^ 32) :
    count (table items) = items.length := by
  have hlen := length_table items
  cases items with
  | nil => rfl
  | cons item rest =>
    have hne : (table (item :: rest)).length ≠ 4 := by
      rw [hlen, List.length_cons]
      omega
    have hfirst : sizeAt (table (item :: rest)) 4 = 4 + 4 * (item :: rest).length := by
      rw [table, offsets, List.append_assoc, List.append_assoc]
      exact sizeAt_append (size _) _ (by omega)
    rw [count, if_neg hne, hfirst]
    omega

/-- The place of the first item of `ys`, or the end of the data when there is none. -/
theorem startOf_table (xs ys : List Bytes) (h : (table (xs ++ ys)).length < 2 ^ 32) :
    startOf (table (xs ++ ys)) xs.length = 4 + 4 * (xs ++ ys).length + xs.flatten.length := by
  have hlen := length_table (xs ++ ys)
  rw [startOf, count_table h]
  cases ys with
  | nil => simp [length_table]
  | cons y ys =>
    rw [if_pos (by simp)]
    have hflat : xs.flatten.length ≤ (xs ++ y :: ys).flatten.length := by simp
    have hfront : 4 + 4 * xs.length
        = (size (4 + 4 * (xs ++ y :: ys).length + (xs ++ y :: ys).flatten.length)
            ++ offsets (4 + 4 * (xs ++ y :: ys).length) xs).length := by
      simp
    rw [hfront, table, offsets_append, offsets, ← List.append_assoc, List.append_assoc,
      List.append_assoc]
    exact sizeAt_append _ _ (by omega)

/-- The item between `xs` and `ys`. -/
theorem item?_table_append (xs : List Bytes) (y : Bytes) (ys : List Bytes)
    (h : (table (xs ++ y :: ys)).length < 2 ^ 32) :
    item? (table (xs ++ y :: ys)) xs.length = some y := by
  have hsplit : xs ++ y :: ys = (xs ++ [y]) ++ ys := by simp
  have hstart := startOf_table xs (y :: ys) h
  have hend := startOf_table (xs ++ [y]) ys (hsplit ▸ h)
  rw [← hsplit, List.length_append, List.length_singleton] at hend
  rw [item?, count_table h, if_pos (by simp), hstart, hend]
  obtain ⟨head, hhead, htable⟩ := exists_head (xs ++ y :: ys)
  have hfront : 4 + 4 * (xs ++ y :: ys).length + xs.flatten.length
      = (head ++ xs.flatten).length := by
    rw [← hhead]
    exact List.length_append.symm
  have hlast : (xs ++ [y]).flatten.length = xs.flatten.length + y.length := by simp
  have hitems : table (xs ++ y :: ys) = (head ++ xs.flatten) ++ (y ++ ys.flatten) := by
    rw [htable]
    simp
  rw [hlast, ← Nat.add_assoc, hfront, hitems, List.take_length_add_append,
    List.drop_left, List.take_left]

/-- **A table is read back item by item.** -/
theorem item?_table {items : List Bytes} (h : (table items).length < 2 ^ 32) (i : Nat) :
    item? (table items) i = items[i]? := by
  by_cases hi : i < items.length
  · have hsplit : items = items.take i ++ items[i] :: items.drop (i + 1) := by simp
    have hlen : (items.take i).length = i := by
      rw [List.length_take]
      omega
    have hitem := item?_table_append (items.take i) items[i] (items.drop (i + 1)) (hsplit ▸ h)
    rw [← hsplit, hlen] at hitem
    rw [hitem, List.getElem?_eq_getElem hi]
  · rw [item?, count_table h, if_neg hi, List.getElem?_eq_none (by omega)]

/-- A table that fits its sizes determines its items. -/
theorem table_injective {xs ys : List Bytes} (h : (table xs).length < 2 ^ 32)
    (heq : table xs = table ys) : xs = ys := by
  apply List.ext_getElem?
  intro i
  rw [← item?_table h, ← item?_table (heq ▸ h), heq]

/-! ## Vectors of one size, and byte strings -/

/-- The items of one positive size are told apart without their number. -/
theorem fixVec_injective {xs ys : List Bytes} {width : Nat} (hpos : 0 < width)
    (hx : ∀ x ∈ xs, x.length = width) (hy : ∀ y ∈ ys, y.length = width)
    (heq : fixVec xs = fixVec ys) : xs = ys := by
  have hflat : xs.flatten = ys.flatten := (List.append_inj heq (by simp)).2
  have hlens : ∀ zs : List Bytes, (∀ z ∈ zs, z.length = width) →
      zs.map List.length = List.replicate zs.length width := by
    intro zs hz
    rw [List.eq_replicate_iff]
    exact ⟨by simp, by simpa using hz⟩
  have hcount : xs.length = ys.length := by
    have hsum := congrArg List.length hflat
    rw [List.length_flatten, List.length_flatten, hlens xs hx, hlens ys hy, List.sum_replicate_nat,
      List.sum_replicate_nat] at hsum
    exact Nat.eq_of_mul_eq_mul_right hpos hsum
  rw [List.eq_iff_flatten_eq]
  exact ⟨hflat, by rw [hlens xs hx, hlens ys hy, hcount]⟩

@[simp] theorem length_bytes (b : Bytes) : (bytes b).length = 4 + b.length := by simp [bytes]

theorem bytes_injective {b c : Bytes} (heq : bytes b = bytes c) : b = c :=
  (List.append_inj heq (by simp)).2

/-- A number of a given width is known from its bytes. -/
theorem fitting_eq_ok {width : Nat} {n : Int} {b : Bytes} :
    fitting width n = .ok b ↔
      (0 ≤ n ∧ n.toNat < 256 ^ width) ∧ b = Bytes.ofNatLE width n.toNat := by
  have hpow : Nat.pow 256 width = 256 ^ width := rfl
  rw [fitting, hpow]
  split <;> simp_all [eq_comm]

theorem length_fitting {width : Nat} {n : Int} {b : Bytes} (h : fitting width n = .ok b) :
    b.length = width := by
  rw [(fitting_eq_ok.mp h).2, Bytes.length_ofNatLE]

theorem fitting_injective {width : Nat} {n m : Int} {b : Bytes} (hn : fitting width n = .ok b)
    (hm : fitting width m = .ok b) : n = m := by
  obtain ⟨⟨hn0, hn1⟩, rfl⟩ := fitting_eq_ok.mp hn
  obtain ⟨⟨hm0, hm1⟩, heq⟩ := fitting_eq_ok.mp hm
  have := Bytes.ofNatLE_injective hn1 hm1 heq
  omega

end CellNft.Molecule
