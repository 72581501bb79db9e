/-
CellNft.Proofs.RawTransaction — the serialisation of a raw transaction commits to every field.

`encodeValue_eq_iff` is the statement: two records that can be serialised give the same bytes
exactly if they agree on version, cell deps, header deps, inputs, outputs and outputs data, each in
the form in which it is read. So nothing can move from one list to the next, from one item to the
next, or from the arguments of a lock into its type.

The proof goes up the nesting. Out points, cell deps and inputs have one size each, so they are cut
apart by length. Scripts, outputs and the whole are tables, which `Molecule.table_injective` takes
apart once the size of the whole bounds theirs. A missing type script is an item without bytes, and
no script has that serialisation (`Script.encode_ne_nil`).
-/
import CellNft.Chain.RawTransaction
import CellNft.Proofs.Molecule
import CellNft.Proofs.Outcome

namespace CellNft

open Outcome

/-- The width is all that is checked. -/
theorem Hash32.ofBytes_eq_ok {b : Bytes} {h : Hash32} : Hash32.ofBytes b = .ok h ↔ b = h.val := by
  unfold ofBytes
  split
  · simp [Subtype.ext_iff]
  · rename_i hlen
    simp only [reduceCtorEq, false_iff]
    intro heq
    exact hlen (heq ▸ h.property)

/-! ## Records of one size

Each has the three lemmas that the next one needs: what its bytes are, how many there are, and that
they are the bytes of no other record. The number of bytes is what a row of records is cut by. -/

/-- The bytes in use are different ones. -/
theorem HashType.byte_injective {s t : HashType} (h : s.byte = t.byte) : s = t := by
  cases s <;> cases t <;> simp_all [byte]

/-- The kind of a dep is read from its name and from nothing else. -/
theorem DepType.eq_str_of_ofValue {v : Value} {t : DepType} (h : ofValue v = .ok t) :
    v = .str t.name := by
  cases v with
  | scalar s =>
    cases s with
    | str name =>
      rw [ofValue] at h
      split at h
      · rename_i u hu
        obtain rfl := Except.ok.inj h
        have hname := List.find?_some hu
        rw [decide_eq_true_eq.mp hname]
      · cases h
    | _ => cases h
  | _ => cases h

theorem DepType.byte_injective {s t : DepType} (h : s.byte = t.byte) : s = t := by
  cases s <;> cases t <;> simp_all [byte]

namespace OutPoint

theorem encode_eq_ok {o : OutPoint} {b : Bytes} :
    o.encode = .ok b ↔ ∃ i, Molecule.fitting 4 o.index = .ok i ∧ o.txHash.val ++ i = b := by
  simp [encode, bind_eq_ok]

theorem length_encode {o : OutPoint} {b : Bytes} (h : o.encode = .ok b) : b.length = 36 := by
  obtain ⟨i, hi, rfl⟩ := encode_eq_ok.mp h
  rw [List.length_append, o.txHash.property, Molecule.length_fitting hi]

/-- The hash has 32 bytes and the index has the rest. -/
theorem encode_injective {o p : OutPoint} {b : Bytes} (ho : o.encode = .ok b)
    (hp : p.encode = .ok b) : o = p := by
  obtain ⟨i, hi, rfl⟩ := encode_eq_ok.mp ho
  obtain ⟨j, hj, heq⟩ := encode_eq_ok.mp hp
  obtain ⟨hhash, rfl⟩ := List.append_inj heq (by rw [o.txHash.property, p.txHash.property])
  have hindex := Molecule.fitting_injective hi hj
  cases o
  cases p
  simp_all [Subtype.ext_iff]

end OutPoint

namespace CellDep

theorem encode_eq_ok {d : CellDep} {b : Bytes} :
    d.encode = .ok b ↔ ∃ o, d.outPoint.encode = .ok o ∧ o ++ [d.depType.byte] = b := by
  simp [encode, bind_eq_ok]

theorem length_encode {d : CellDep} {b : Bytes} (h : d.encode = .ok b) : b.length = 37 := by
  obtain ⟨o, ho, rfl⟩ := encode_eq_ok.mp h
  rw [List.length_append, OutPoint.length_encode ho, List.length_singleton]

/-- The last byte is the kind. -/
theorem encode_injective {d e : CellDep} {b : Bytes} (hd : d.encode = .ok b)
    (he : e.encode = .ok b) : d = e := by
  obtain ⟨o, ho, rfl⟩ := encode_eq_ok.mp hd
  obtain ⟨p, hp, heq⟩ := encode_eq_ok.mp he
  obtain ⟨rfl, htype⟩ := List.append_inj heq
    (by rw [OutPoint.length_encode ho, OutPoint.length_encode hp])
  have hpoint := OutPoint.encode_injective ho hp
  have hbyte := DepType.byte_injective (List.singleton_inj.mp htype)
  cases d
  cases e
  simp_all

end CellDep

namespace CellInput

theorem encode_eq_ok {i : CellInput} {b : Bytes} :
    i.encode = .ok b ↔ ∃ s, Molecule.fitting 8 i.since = .ok s ∧
      ∃ o, i.previousOutput.encode = .ok o ∧ s ++ o = b := by
  simp [encode, bind_eq_ok]

theorem length_encode {i : CellInput} {b : Bytes} (h : i.encode = .ok b) : b.length = 44 := by
  obtain ⟨s, hs, o, ho, rfl⟩ := encode_eq_ok.mp h
  rw [List.length_append, Molecule.length_fitting hs, OutPoint.length_encode ho]

/-- The first eight bytes are the age. -/
theorem encode_injective {i j : CellInput} {b : Bytes} (hi : i.encode = .ok b)
    (hj : j.encode = .ok b) : i = j := by
  obtain ⟨s, hs, o, ho, rfl⟩ := encode_eq_ok.mp hi
  obtain ⟨r, hr, p, hp, heq⟩ := encode_eq_ok.mp hj
  obtain ⟨rfl, rfl⟩ := List.append_inj heq
    (by rw [Molecule.length_fitting hs, Molecule.length_fitting hr])
  have hsince := Molecule.fitting_injective hs hr
  have hpoint := OutPoint.encode_injective ho hp
  cases i
  cases j
  simp_all

end CellInput

/-! ## Scripts and outputs

These are tables, and an offset of a table has four bytes. From 2 ^ 32 bytes on two tables may look
alike, which is why the size of the bytes is a hypothesis from here on. -/

namespace Script

/-- Arguments cannot pass for a part of the code hash or of the hash type. -/
theorem encode_injective {s t : Script} (hsize : s.encode.length < 2 ^ 32)
    (h : s.encode = t.encode) : s = t := by
  have hitems := Molecule.table_injective hsize h
  simp only [List.cons.injEq, and_true] at hitems
  obtain ⟨hhash, htype, hargs⟩ := hitems
  have hbyte := HashType.byte_injective htype
  have hargs := Molecule.bytes_injective hargs
  cases s
  cases t
  simp_all [Subtype.ext_iff]

/-- The place of a missing script cannot be taken for a script. -/
theorem encode_ne_nil (s : Script) : s.encode ≠ [] := by
  intro h
  have hlen := congrArg List.length h
  rw [encode, Molecule.length_table] at hlen
  simp at hlen

end Script

namespace CellOutput

/-- The serialisation of the type script of an output, which may be missing. -/
theorem typeBytes_injective {s t : Option Script}
    (hsize : ((s.map Script.encode).getD []).length < 2 ^ 32)
    (h : (s.map Script.encode).getD [] = (t.map Script.encode).getD []) : s = t := by
  cases s with
  | none =>
    cases t with
    | none => rfl
    | some t => exact absurd h.symm (Script.encode_ne_nil t)
  | some s =>
    cases t with
    | none => exact absurd h (Script.encode_ne_nil s)
    | some t => rw [Script.encode_injective hsize h]

theorem encode_eq_ok {o : CellOutput} {b : Bytes} :
    o.encode = .ok b ↔ ∃ c, Molecule.fitting 8 o.capacity = .ok c ∧
      Molecule.table [c, o.lock.encode, (o.type.map Script.encode).getD []] = b := by
  simp [encode, bind_eq_ok]

/-- The bound goes down to the lock and the type, which are items of the table. -/
theorem encode_injective {o p : CellOutput} {b : Bytes} (hsize : b.length < 2 ^ 32)
    (ho : o.encode = .ok b) (hp : p.encode = .ok b) : o = p := by
  obtain ⟨c, hc, rfl⟩ := encode_eq_ok.mp ho
  obtain ⟨d, hd, heq⟩ := encode_eq_ok.mp hp
  have hitems := Molecule.table_injective (heq ▸ hsize) heq
  simp only [List.cons.injEq, and_true] at hitems
  obtain ⟨rfl, hlock, htype⟩ := hitems
  have hcapacity := Molecule.fitting_injective hc hd
  have hlock := Script.encode_injective
    (Nat.lt_of_le_of_lt (hlock ▸ Molecule.length_item_le (by simp)) hsize) hlock.symm
  have htype := typeBytes_injective
    (Nat.lt_of_le_of_lt (Molecule.length_item_le (by simp)) hsize) htype.symm
  cases o
  cases p
  simp_all

end CellOutput

/-! ## The whole -/

namespace RawTransaction

/-- A list of records is read from the value under its key, item by item. -/
theorem readAll_eq_ok {α : Type} {read : Value → Except Fault α} {v : Value} {key : String}
    {xs : List α} : readAll read v key = .ok xs ↔ ∃ w parts, v.item key = .ok w ∧
      w.elements = .ok parts ∧ parts.mapM read = .ok xs := by
  simp only [readAll, bind_eq_ok]
  constructor
  · rintro ⟨w, hw, parts, hparts, hxs⟩
    exact ⟨w, parts, hw, hparts, hxs⟩
  · rintro ⟨w, parts, hw, hparts, hxs⟩
    exact ⟨w, hw, parts, hparts, hxs⟩

/-- The table of a transaction has the six fields in this order. It is refused if it is too large. -/
theorem encode_eq_ok {t : RawTransaction} {b : Bytes} :
    t.encode = .ok b ↔ ∃ version deps headers inputs outputs,
      Molecule.fitting 4 t.version = .ok version ∧
      t.cellDeps.mapM CellDep.encode = .ok deps ∧
      t.headerDeps.mapM Hash32.ofBytes = .ok headers ∧
      t.inputs.mapM CellInput.encode = .ok inputs ∧
      t.outputs.mapM CellOutput.encode = .ok outputs ∧
      b.length < 2 ^ 32 ∧
      b = Molecule.table [version, Molecule.fixVec deps, Molecule.fixVec (headers.map (·.val)),
        Molecule.fixVec inputs, Molecule.table outputs,
        Molecule.table (t.outputsData.map Molecule.bytes)] := by
  simp only [encode, bind_eq_ok, Molecule.sized_eq_ok]
  constructor
  · rintro ⟨version, hversion, deps, hdeps, headers, hheaders, inputs, hinputs, outputs, houtputs,
      hsize, rfl⟩
    exact ⟨version, deps, headers, inputs, outputs, hversion, hdeps, hheaders, hinputs, houtputs,
      hsize, rfl⟩
  · rintro ⟨version, deps, headers, inputs, outputs, hversion, hdeps, hheaders, hinputs, houtputs,
      hsize, rfl⟩
    exact ⟨version, hversion, deps, hdeps, headers, hheaders, inputs, hinputs, outputs, houtputs,
      hsize, rfl⟩

/-- Hashes of blocks have 32 bytes each, so a row of them is cut without offsets. -/
theorem headerDeps_injective {hs hs' : List Bytes} {headers headers' : List Hash32}
    (h : hs.mapM Hash32.ofBytes = .ok headers) (h' : hs'.mapM Hash32.ofBytes = .ok headers')
    (heq : Molecule.fixVec (headers.map (·.val)) = Molecule.fixVec (headers'.map (·.val))) :
    hs = hs' := by
  have hwidth : ∀ l : List Hash32, ∀ b ∈ l.map (·.val), b.length = 32 := by
    intro l b hb
    obtain ⟨x, -, rfl⟩ := List.mem_map.mp hb
    exact x.property
  have hvals := Molecule.fixVec_injective (by decide) (hwidth headers) (hwidth headers') heq
  obtain rfl := Subtype.val_injective.list_map hvals
  refine mapM_injective (fun y _ x x' hx hx' => ?_) h h'
  rw [Hash32.ofBytes_eq_ok.mp hx, Hash32.ofBytes_eq_ok.mp hx']

/-- The bytes of a raw transaction are the bytes of no other. -/
theorem encode_injective {t u : RawTransaction} {b : Bytes} (ht : t.encode = .ok b)
    (hu : u.encode = .ok b) : t = u := by
  obtain ⟨v, deps, headers, inputs, outputs, hv, hdeps, hheaders, hinputs, houtputs, hsize, hb⟩ :=
    encode_eq_ok.mp ht
  obtain ⟨v', deps', headers', inputs', outputs', hv', hdeps', hheaders', hinputs', houtputs', -,
    hb'⟩ := encode_eq_ok.mp hu
  have hitem : ∀ {item : Bytes}, item ∈ [v, Molecule.fixVec deps,
      Molecule.fixVec (headers.map (·.val)), Molecule.fixVec inputs, Molecule.table outputs,
      Molecule.table (t.outputsData.map Molecule.bytes)] → item.length < 2 ^ 32 := by
    intro item hmem
    exact Nat.lt_of_le_of_lt (Molecule.length_item_le hmem) (hb ▸ hsize)
  have hitems := Molecule.table_injective (hb ▸ hsize) (hb.symm.trans hb')
  simp only [List.cons.injEq, and_true] at hitems
  obtain ⟨rfl, heqDeps, heqHeaders, heqInputs, heqOutputs, heqData⟩ := hitems
  have hversion := Molecule.fitting_injective hv hv'
  obtain rfl := Molecule.fixVec_injective (by decide)
    (mapM_forall hdeps fun _ _ => CellDep.length_encode)
    (mapM_forall hdeps' fun _ _ => CellDep.length_encode) heqDeps
  have hcellDeps := mapM_injective (fun _ _ _ _ => CellDep.encode_injective) hdeps hdeps'
  have hheaderDeps := headerDeps_injective hheaders hheaders' heqHeaders
  obtain rfl := Molecule.fixVec_injective (by decide)
    (mapM_forall hinputs fun _ _ => CellInput.length_encode)
    (mapM_forall hinputs' fun _ _ => CellInput.length_encode) heqInputs
  have hcellInputs := mapM_injective (fun _ _ _ _ => CellInput.encode_injective) hinputs hinputs'
  -- Outputs and data have sizes of their own, bounded by the table they stand in.
  have houtputSize : (Molecule.table outputs).length < 2 ^ 32 := hitem (by simp)
  obtain rfl := Molecule.table_injective houtputSize heqOutputs
  have hcellOutputs := mapM_injective (fun y hy _ _ => CellOutput.encode_injective
    (Nat.lt_of_le_of_lt (Molecule.length_item_le hy) houtputSize)) houtputs houtputs'
  have hdata := Molecule.table_injective (hitem (by simp)) heqData
  have houtputsData := List.map_injective_iff.mpr (fun _ _ => Molecule.bytes_injective) hdata
  cases t
  cases u
  simp_all

/-- **The serialisation commits to every field.** -/
theorem encodeValue_eq_iff {v₁ v₂ : Value} {b₁ b₂ : Bytes} (h₁ : encodeValue v₁ = .ok b₁)
    (h₂ : encodeValue v₂ = .ok b₂) :
    ∃ t₁ t₂, ofValue v₁ = .ok t₁ ∧ ofValue v₂ = .ok t₂ ∧
      (b₁ = b₂ ↔ t₁.version = t₂.version ∧ t₁.cellDeps = t₂.cellDeps ∧
        t₁.headerDeps = t₂.headerDeps ∧ t₁.inputs = t₂.inputs ∧ t₁.outputs = t₂.outputs ∧
        t₁.outputsData = t₂.outputsData) := by
  obtain ⟨t₁, ht₁, hb₁⟩ := bind_eq_ok.mp h₁
  obtain ⟨t₂, ht₂, hb₂⟩ := bind_eq_ok.mp h₂
  refine ⟨t₁, t₂, ht₁, ht₂, ?_⟩
  constructor
  · rintro rfl
    obtain rfl := encode_injective hb₁ hb₂
    simp
  · rintro ⟨hversion, hdeps, hheaders, hinputs, houtputs, hdata⟩
    have heq : t₁ = t₂ := by
      cases t₁
      cases t₂
      simp_all
    rw [heq, hb₂] at hb₁
    exact (Except.ok.inj hb₁).symm

/-- A transaction with nothing but outputs data and witnesses. -/
def bare (data : List String) (witnesses : List Value) : Value := .record [
  ("version", .str "0x0"), ("cellDeps", .list []), ("headerDeps", .list []), ("inputs", .list []),
  ("outputs", .list []), ("outputsData", .list (data.map fun (d : String) => .str d)),
  ("witnesses", .list witnesses)]

/-- A byte that moves from one item to the next changes the serialisation. -/
theorem encodeValue_ne_of_moved_byte : ∃ b₁ b₂,
    encodeValue (bare ["0x0102", "0x"] []) = .ok b₁ ∧
      encodeValue (bare ["0x01", "0x02"] []) = .ok b₂ ∧ b₁ ≠ b₂ := by
  obtain ⟨b₁, h₁⟩ :=
    exists_of_isOk (x := encodeValue (bare ["0x0102", "0x"] [])) (by decide)
  obtain ⟨b₂, h₂⟩ :=
    exists_of_isOk (x := encodeValue (bare ["0x01", "0x02"] [])) (by decide)
  obtain ⟨t₁, t₂, ht₁, ht₂, hiff⟩ := encodeValue_eq_iff h₁ h₂
  refine ⟨b₁, b₂, h₁, h₂, ?_⟩
  intro heq
  obtain ⟨-, -, -, -, -, hdata⟩ := hiff.mp heq
  obtain rfl : t₁ = ⟨0, [], [], [], [], [[1, 2], []]⟩ := Except.ok.inj (ht₁.symm.trans rfl)
  obtain rfl : t₂ = ⟨0, [], [], [], [], [[1], [2]]⟩ := Except.ok.inj (ht₂.symm.trans rfl)
  exact absurd hdata (by decide)

end RawTransaction
end CellNft
